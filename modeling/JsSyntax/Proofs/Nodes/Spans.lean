import Mathlib.Logic.Relation
import JsSyntax.Proofs.Nodes.Laid
import JsSyntax.Proofs.Sound.Program

/-! # Spans of nodes

The span of a node runs from the start of one token to the end of another. It encloses the spans of
the children, which stand one behind another (`body_placed`): parentheses around an operand belong
to the node that has the operand, and the key of a shorthand is its value, too.
-/

set_option autoImplicit false

namespace JsSyntax

open Grammar Parse

namespace Span

/-- The second span lies within the first. -/
def Encloses (s s' : Span) : Prop := s.start.offset ≤ s'.start.offset ∧ s'.stop.offset ≤ s.stop.offset

/-- The first span ends before the second one starts. -/
def Precedes (s s' : Span) : Prop := s.stop.offset ≤ s'.start.offset

end Span

namespace Node

/-- The second node is the first one or occurs somewhere below it. -/
def Contains {σ : Type} : Node σ → Node σ → Prop :=
  Relation.ReflTransGen fun n c => c ∈ n.children

/-- The node lies in its source as it should: on whole tokens, around its children, and these one
behind another. -/
structure Placed (source : String) (n : Node Span) : Prop where
  nonempty : n.span.start.offset < n.span.stop.offset
  starts : ∃ t ∈ tokenize source, t.kind ≠ .comment ∧ t.kind ≠ .eof ∧ n.span.start = t.span.start
  stops : ∃ t ∈ tokenize source, t.kind ≠ .comment ∧ t.kind ≠ .eof ∧ n.span.stop = t.span.stop
  encloses : ∀ c ∈ n.children, n.span.Encloses c.span
  apart : n.children.Pairwise (fun c c' => c.span.Precedes c'.span) ∨
    n.isShorthand ∧ ∀ c ∈ n.children, c.span = n.span

end Node

/-! ## Stretches -/

section
variable {u v : List Token}

theorem infix_ordered (ho : Ordered u) (h : v <:+: u) : Ordered v := ho.sublist h.sublist

theorem encloses_of_infix {s s' : Span} (ho : Ordered u) (h : v <:+: u)
    (hs : Reading.spanned.Covers u s) (hs' : Reading.spanned.Covers v s') : s.Encloses s' := by
  obtain ⟨first, last, hf, hl, rfl⟩ := hs
  obtain ⟨first', last', hf', hl', rfl⟩ := hs'
  rw [ho.through hf hl, (infix_ordered ho h).through hf' hl']
  exact ⟨ho.head_le hf (h.subset (List.mem_of_mem_head? hf')),
    ho.le_getLast hl (h.subset (List.mem_of_getLast? hl'))⟩

theorem precedes_of_append {s s' : Span} (ho : Ordered (u ++ v)) (hs : Reading.spanned.Covers u s)
    (hs' : Reading.spanned.Covers v s') : s.Precedes s' := by
  have hu : u <:+: u ++ v := (List.prefix_append u v).isInfix
  have hv : v <:+: u ++ v := (List.suffix_append u v).isInfix
  obtain ⟨first, last, hf, hl, rfl⟩ := hs
  obtain ⟨first', last', hf', hl', rfl⟩ := hs'
  rw [(infix_ordered ho hu).through hf hl, (infix_ordered ho hv).through hf' hl']
  exact (List.pairwise_append.1 ho.pairwise).2.2 last (List.mem_of_getLast? hl) first'
    (List.mem_of_mem_head? hf')

end

theorem Strewn.pairwise {ns : List (Node Span)} {u : List Token} (h : Strewn ns u)
    (ho : Ordered u) : ns.Pairwise fun c c' => c.span.Precedes c'.span := by
  induction ns generalizing u with
  | nil => exact .nil
  | cons n ns ih =>
    cases h with
    | @cons _ _ before v w hn hns =>
      have hvw : Ordered (v ++ w) := infix_ordered ho (List.suffix_append before _).isInfix
      have hw : Ordered w := infix_ordered hvw (List.suffix_append v w).isInfix
      refine List.pairwise_cons.2 ⟨fun c hc => ?_, ih hns hw⟩
      obtain ⟨v', ⟨front, back, rfl⟩, hlaid⟩ := hns.exists_laid hc
      -- Of what stands behind `v`, only the stretch of the child matters.
      have hsub : (v ++ v').Sublist (v ++ (front ++ v' ++ back)) :=
        (List.Sublist.refl v).append
          ((List.sublist_append_right front v').trans (List.sublist_append_left _ back))
      exact precedes_of_append (hvw.sublist hsub) hn.covers hlaid.covers

namespace Laid

variable {n m : Node Span} {u : List Token}

theorem child (h : Laid n u) (hm : m ∈ n.children) : ∃ v, v <:+: u ∧ Laid m v := by
  cases h with
  | node _ h => exact h.exists_laid hm
  | shorthand _ _ h => exact ⟨_, List.infix_rfl, h m hm⟩

theorem contains (h : Laid n u) (hm : n.Contains m) : ∃ v, v <:+: u ∧ Laid m v := by
  induction hm with
  | refl => exact ⟨u, List.infix_rfl, h⟩
  | tail _ hc ih =>
    obtain ⟨v, hv, hlaid⟩ := ih
    obtain ⟨w, hw, hchild⟩ := hlaid.child hc
    exact ⟨w, hw.trans hv, hchild⟩

theorem apart (h : Laid n u) (ho : Ordered u) :
    n.children.Pairwise (fun c c' => c.span.Precedes c'.span) ∨
      n.isShorthand ∧ ∀ c ∈ n.children, c.span = n.span := by
  cases h with
  | node _ h => exact .inl (h.pairwise ho)
  | @shorthand _ t hs hn h =>
    have hone : ∀ {s}, Reading.spanned.Covers [t] s → s = t.span.through t.span := by
      rintro s ⟨first, last, hf, hl, rfl⟩
      cases hf
      cases hl
      rfl
    exact .inr ⟨hs, fun c hc => (hone (h c hc).covers).trans (hone hn).symm⟩

/-- A node that is laid out on tokens of the source is placed in it. -/
theorem placed {source : String} (h : Laid n u) (hu : u <:+: (startOf source).rest) :
    n.Placed source := by
  have ho : Ordered u := infix_ordered (ordered_startOf source) hu
  have htoken : ∀ t ∈ u, t ∈ tokenize source ∧ t.kind ≠ .comment ∧ t.kind ≠ .eof := by
    intro t ht
    have ht := hu.subset ht
    rw [rest_startOf] at ht
    simpa using ht
  obtain ⟨first, last, hf, hl, hspan⟩ := h.covers
  have hspan : n.span = ⟨first.span.start, last.span.stop⟩ := hspan.trans (ho.through hf hl)
  obtain ⟨hfirst, hfirst'⟩ := htoken first (List.mem_of_mem_head? hf)
  obtain ⟨hlast, hlast'⟩ := htoken last (List.mem_of_getLast? hl)
  refine ⟨?_, ⟨first, hfirst, hfirst'.1, hfirst'.2, by rw [hspan]⟩,
    ⟨last, hlast, hlast'.1, hlast'.2, by rw [hspan]⟩, fun c hc => ?_, h.apart ho⟩
  · rw [hspan]
    have h₁ := ho.start_lt_stop first (List.mem_of_mem_head? hf)
    have h₂ := ho.le_getLast hl (List.mem_of_mem_head? hf)
    exact Nat.lt_of_lt_of_le h₁ h₂
  · obtain ⟨v, hv, hchild⟩ := h.child hc
    exact encloses_of_infix ho hv h.covers hchild.covers

end Laid

/-! ## Programs -/

namespace Parse

/-- The statements of a run are laid out one behind another. -/
theorem Runs.strewn {d : Deeper} [d.Regular] {s s' : State} {os : List Outcome}
    (h : Runs d s os s') : Strewn ((os.filterMap statementOf?).map .statement) s.rest := by
  induction h with
  | done _ => exact .nil
  | statement _ h _ ih =>
    obtain ⟨u, hu, -, hst⟩ := statement_reads h
    rw [hu.rest]
    exact hst.strewn.append ih
  | failure hs h _ ih =>
    obtain ⟨u, -, hr, -⟩ := failure_reads hs h
    rw [hr.rest]
    exact ih.before _

/-- A run ends with the last token, which is where the span of a program ends. -/
theorem Runs.covers {d : Deeper} [d.Regular] {s s' : State} {os : List Outcome}
    (h : Runs d s os s') (hs : s.rest ≠ []) :
    Reading.spanned.Covers s.rest (s'.spanFrom s.current.span) :=
  h.reads.1.covers hs

end Parse

/-- Every statement of a program lies within the program, one behind another, and every node below
them is placed in the source. -/
theorem body_placed (source : String) :
    (parse source).body.Pairwise (fun st st' => st.span.Precedes st'.span) ∧
    ∀ st ∈ (parse source).body, (parse source).span.Encloses st.span ∧
      ∀ n, (Node.statement st).Contains n → n.Placed source := by
  obtain ⟨os, s, hruns, hparse⟩ := parseWith_runs nestingLimit source
  have hstrewn : Strewn ((parse source).body.map .statement) (startOf source).rest := by
    rw [parse, hparse]
    exact hruns.strewn
  have ho := ordered_startOf source
  refine ⟨(List.pairwise_map.1 (hstrewn.pairwise ho) :), fun st hst => ?_⟩
  obtain ⟨u, hu, hlaid⟩ := hstrewn.exists_laid (List.mem_map_of_mem hst)
  refine ⟨?_, fun n hn => ?_⟩
  · have hne : (startOf source).rest ≠ [] := by
      obtain ⟨first, -, hf, -⟩ := hlaid.covers
      exact List.ne_nil_of_mem (hu.subset (List.mem_of_mem_head? hf))
    rw [parse, hparse]
    exact encloses_of_infix ho hu (hruns.covers hne) hlaid.covers
  · obtain ⟨v, hv, hnode⟩ := hlaid.contains hn
    exact hnode.placed (hv.trans hu)

/-- The sum in a statement, an operand of which is in parentheses. -/
theorem body_placed_sum : ∃ st ∈ (parse "(a) + b;").body, ∃ n, (Node.statement st).Contains n ∧
    n.span = ⟨⟨0, 1, 1⟩, ⟨7, 1, 8⟩⟩ ∧ n.children.map Node.span =
      [⟨⟨1, 1, 2⟩, ⟨2, 1, 3⟩⟩, ⟨⟨6, 1, 7⟩, ⟨7, 1, 8⟩⟩] ∧ n.Placed "(a) + b;" := by
  have hshape : (parse "(a) + b;").body.flatMap (fun st =>
      st.children.map fun n => (n.span, n.children.map Node.span)) =
      [(⟨⟨0, 1, 1⟩, ⟨7, 1, 8⟩⟩, [⟨⟨1, 1, 2⟩, ⟨2, 1, 3⟩⟩, ⟨⟨6, 1, 7⟩, ⟨7, 1, 8⟩⟩])] := by
    decide +kernel
  obtain ⟨st, hst, hmem⟩ := List.mem_flatMap.1 (hshape ▸ List.mem_singleton_self _)
  obtain ⟨n, hn, heq⟩ := List.mem_map.1 hmem
  have hn : (Node.statement st).Contains n := .single hn
  exact ⟨st, hst, n, hn, congrArg Prod.fst heq, congrArg Prod.snd heq,
    ((body_placed _).2 st hst).2 n hn⟩

end JsSyntax
