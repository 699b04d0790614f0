import JsSyntax.Proofs.Excerpt.Expression
import JsSyntax.Proofs.Excerpt.Text
import JsSyntax.Proofs.Nodes.Spans
import JsSyntax.Proofs.Slice

/-! # Expressions on their own

The text of the span of an expression is the expression, wherever it is cut out: behind `return` and
in front of a semicolon it is read as the same expression (`parse_excerpt`). The level of precedence
at which it has been read, parentheses around it and the nesting above it have no say in it.
-/

set_option autoImplicit false

namespace JsSyntax

open Parse Grammar

/-! ## Tokens that are closed -/

theorem closed_startOf (source : String) :
    (startOf source).rest.Pairwise fun t _ => ¬ Unclosed t.kind t.value.toList := by
  have hclosed := (lexes_tokenize source).closed.filter fun t => t.kind ≠ .comment ∧ t.kind ≠ .eof
  rw [← rest_startOf] at hclosed
  refine hclosed.imp_of_mem fun {t t'} _ ht' h => h ?_
  rw [rest_startOf, List.mem_filter, decide_eq_true_eq] at ht'
  exact ht'.2.2

/-- No token of a statement is open, since the statement ends with a mark. -/
theorem not_unclosed_of_statement {source : String} {u : List Token} {st : Statement Span}
    (hu : u <:+: (startOf source).rest) (hst : Derives Reading.spanned .statement u st) :
    ∀ t ∈ u, ¬ Unclosed t.kind t.value.toList := by
  obtain ⟨v, m, rfl, hm⟩ := hst.ends_with_mark rfl
  have hm : m.kind = .punctuation := hm
  have hclosed := List.pairwise_append.1 ((closed_startOf source).sublist hu.sublist)
  intro t ht
  rcases List.mem_append.1 ht with ht | ht
  · exact hclosed.2.2 t ht m (List.mem_singleton_self m)
  · rw [List.mem_singleton.1 ht, hm]
    exact not_false

/-! ## Statements with `return` -/

namespace Parse

theorem keywordStatement_of_return {d : Deeper} {s : State} (hv : s.current.value = "return") :
    keywordStatement d s = returnStatement d s := by
  have hword : ∀ word, word ≠ "return" → s.current.isKeyword word = false := fun word hne =>
    Bool.eq_false_iff.2 fun h => hne ((Token.is_iff.1 h).2.symm.trans hv)
  rw [keywordStatement, peek_bind, isFunctionNext_bind, hword _ (by decide), hword _ (by decide)]
  simp [hv]

theorem statement_of_return {d : Deeper} {s : State} (hk : s.current.kind = .keyword)
    (hv : s.current.value = "return") : statement d s =
      returnStatement d { s with events := .statement s.current :: s.events } := by
  let s' : State := { s with events := .statement s.current :: s.events }
  have hnone : chosen .keyword VariableKind.keyword VariableKind.all s'.current = none := by
    show chosen _ _ _ s.current = none
    rw [chosen, if_pos hk, hv]
    decide
  rw [statement, peek_bind, emit_bind, bind_of_ok (acceptOneOf_of_none hnone)]
  simp only [hk]
  exact keywordStatement_of_return (s := s') hv

/-- A `return` in front of an expression that stands alone. -/
theorem Alone.returned {n : Nat} {u : List Token} {e : Expr Span} (h : Alone (level n) u e)
    {s : State} (hs : s.rest.map Token.phrase =
      (.keyword, "return") :: (u.map Token.phrase ++ [(.punctuation, ";")])) :
    ∃ st s', (level (n + 2)).statement s = .ok st s' ∧ s'.rest = [] ∧
      st.erase = .ret (some e.erase) () := by
  obtain ⟨r, rest, hrest, hr, htail⟩ := List.map_eq_cons_iff.1 hs
  obtain ⟨v, semis, rfl, hv, hsemis⟩ := List.map_eq_append_iff.1 htail
  obtain ⟨semi, rfl, hsemi⟩ := List.map_eq_singleton_iff.1 hsemis
  obtain ⟨hkind, hvalue⟩ := Prod.mk.inj hr
  have hmark : semi.isPunctuation ";" := Token.is_iff.2 (Prod.mk.inj hsemi)
  have hcurrent : s.current = r := by simp [State.current, hrest]
  let s₁ : State := { s with events := .statement s.current :: s.events }
  let s₂ : State := s₁.behind r (v ++ [semi])
  obtain ⟨e', s₃, hassignment, hs₃, he⟩ := h (t := s₂) rfl hv hmark
  have hstart : ¬ s₂.current.isPunctuation ";" := by
    obtain ⟨w, hw, hde⟩ := assignment_parses (level_sound n) hassignment
    exact fun hm => hde.head_not_semicolon rfl _ (hw.current (hde.ne_nil rfl)) (Token.is_iff.1 hm)
  have hargument : optionalBefore (level (n + 1)) ";" s₂ = .ok (some e') s₃ := by
    rw [optionalBefore, isMarkNext_bind, if_neg hstart, map_eq_ok]
    exact ⟨e', hassignment, rfl⟩
  have hrequire : require .returnEnd s₃ = .ok () (s₃.behind semi []) := require_of_mark hs₃ hmark
  have hreturn : returnStatement (level (n + 1)) s₁ =
      .ok (.ret (some e') ((s₃.behind semi []).spanFrom s₁.current.span)) (s₃.behind semi []) := by
    rw [returnStatement, peek_bind, bind_of_ok (discard_advance_of_rest (s := s₁) hrest),
      bind_of_ok hargument, bind_of_ok hrequire, spanFrom_bind]
    rfl
  refine ⟨_, _, (statement_of_return (hcurrent ▸ hkind) (hcurrent ▸ hvalue)).trans hreturn, rfl, ?_⟩
  rw [← he]
  rfl

end Parse

/-! ## Expressions of a program -/

theorem Spans.endsClosed {source : String} {sp : Span} {mid : List Token}
    (h : Spans source sp mid)
    (hlast : ∀ t ∈ mid.getLast?, t.kind ≠ .comment ∧ ¬ Unclosed t.kind t.value.toList) :
    EndsClosed (sp.text source) := by
  rw [EndsClosed, h.tokenize_text, List.map_append, List.map_singleton, List.dropLast_concat,
    List.getLast?_map]
  intro t ht
  obtain ⟨t, hmem, rfl⟩ := Option.map_eq_some_iff.1 ht
  exact hlast t hmem

theorem Node.Holds.contains {σ : Type} {n m : Node σ} (h : n.Holds m) : n.Contains m :=
  Relation.ReflTransGen.mono (fun _ _ h => h.1) _ _ h

/-- A span covers one stretch only. -/
theorem eq_of_covers {l u v : List Token} {sp : Span} (ho : Ordered l) (hu : u <:+: l)
    (hv : v <:+: l) (hu' : Reading.spanned.Covers u sp) (hv' : Reading.spanned.Covers v sp) :
    u = v := by
  have hfilter : ∀ {w : List Token}, w <:+: l → Reading.spanned.Covers w sp →
      l.filter (Within sp ·) = w := by
    rintro w ⟨a, b, rfl⟩ hw
    rw [List.append_assoc] at ho ⊢
    exact filter_within ho hw
  exact (hfilter hu hu').symm.trans (hfilter hv hv')

/-- What an expression of a program has been read from: tokens of the source, none of which is open,
that are read as the expression when they stand alone. -/
theorem exists_alone {source : String} {st : Statement Span} {e : Expr Span}
    (hst : st ∈ (parse source).body) (he : (Node.statement st).Holds (.expr e)) :
    ∃ u, u <:+: (startOf source).rest ∧ Reading.spanned.Covers u e.span ∧
      (∀ t ∈ u, ¬ Unclosed t.kind t.value.toList) ∧ Alone (level (nestingLimit - 2)) u e := by
  obtain ⟨os, s, hruns, hparse⟩ := parseWith_runs nestingLimit source
  rw [parse, hparse] at hst
  have hst := mem_filterMap_statementOf?.1 hst
  have hsited : (Node.statement st).All (Sited (level (nestingLimit - 2)) (startOf source)) :=
    Runs.sited hruns ⟨[], .refl _⟩ st hst
  obtain ⟨u, hu, hcovers, halone⟩ := hsited e he
  obtain ⟨before, v, behind, hrest, hderives⟩ := hruns.derives st hst
  have hv : v <:+: (startOf source).rest := ⟨before, behind, by rw [hrest, List.append_assoc]⟩
  obtain ⟨w, hw, hlaid⟩ := hderives.strewn.exists_laid (List.mem_singleton_self _)
  obtain ⟨u', hu', hnode⟩ := hlaid.contains he.contains
  have hu' := hu'.trans hw
  obtain rfl := eq_of_covers (ordered_startOf source) hu (hu'.trans hv) hcovers hnode.covers
  have hclosed := not_unclosed_of_statement hv hderives
  exact ⟨u, hu, hcovers, fun t ht => hclosed t (hu'.subset ht), halone⟩

/-- The text of an expression of a program is read as the expression behind `return`, too. What a
class extends is left out: it nests one level less deeply than the argument of a `return` does. -/
theorem parse_excerpt (source : String) (st : Statement Span) (e : Expr Span)
    (hst : st ∈ (parse source).body) (he : (Node.statement st).Holds (.expr e)) :
    (parse ("return " ++ e.span.text source ++ ";")).errors = [] ∧
      (parse ("return " ++ e.span.text source ++ ";")).body.map Statement.erase =
        [.ret (some e.erase) ()] := by
  obtain ⟨u, hu, hcovers, hclosed, halone⟩ := exists_alone hst he
  obtain ⟨mid, hmid, rfl, hlast⟩ := exists_spans hu hcovers
  have hends : EndsClosed (e.span.text source) := by
    refine hmid.endsClosed fun t ht => ?_
    have ht := List.mem_of_getLast? (hlast ▸ ht)
    exact ⟨(of_decide_eq_true (List.mem_filter.1 ht).2).1, hclosed t ht⟩
  have hrest := rest_return hends
  rw [hmid.rest_text, List.map_map] at hrest
  obtain ⟨st', s', hok, hs', herase⟩ := halone.returned hrest
  have hne : (startOf ("return " ++ e.span.text source ++ ";")).rest ≠ [] := by
    intro hnil
    rw [hnil] at hrest
    cases hrest
  obtain ⟨os, s'', hruns, hparse⟩ := parseWith_runs nestingLimit
    ("return " ++ e.span.text source ++ ";")
  obtain ⟨rfl, -⟩ := hruns.unique (.statement hne hok (.done hs'))
  rw [parse, hparse]
  exact ⟨rfl, congrArg (fun x => [x]) herase⟩

/-- A sum in parentheses, with a comment in it. -/
theorem parse_excerpt_sum : ∃ st ∈ (parse "(a /**/ + b) * c;").body, ∃ e,
    (Node.statement st).Holds (.expr e) ∧ e.span = ⟨⟨1, 1, 2⟩, ⟨11, 1, 12⟩⟩ ∧
      (parse "return a /**/ + b;").errors = [] ∧
      (parse "return a /**/ + b;").body.map Statement.erase = [.ret (some e.erase) ()] := by
  have hshape : ((parse "(a /**/ + b) * c;").body.flatMap fun st => st.children.flatMap fun n =>
      n.children.map fun c => (n.isExpr, c.isExpr, c.span))[0]? =
        some (true, true, ⟨⟨1, 1, 2⟩, ⟨11, 1, 12⟩⟩) := by
    decide +kernel
  obtain ⟨st, hst, hmem⟩ := List.mem_flatMap.1 (List.mem_of_getElem? hshape)
  obtain ⟨n, hn, hmem⟩ := List.mem_flatMap.1 hmem
  obtain ⟨c, hc, heq⟩ := List.mem_map.1 hmem
  obtain ⟨hproduct, hsum, hspan⟩ : n.isExpr = true ∧ c.isExpr = true ∧
      c.span = ⟨⟨1, 1, 2⟩, ⟨11, 1, 12⟩⟩ := by simpa using heq
  obtain ⟨product, rfl⟩ := Node.exists_expr hproduct
  obtain ⟨e, rfl⟩ := Node.exists_expr hsum
  have hspan : e.span = ⟨⟨1, 1, 2⟩, ⟨11, 1, 12⟩⟩ := hspan
  have htext : "return " ++ e.span.text "(a /**/ + b) * c;" ++ ";" = "return a /**/ + b;" := by
    rw [hspan]
    decide +kernel
  have hholds : (Node.statement st).Holds (.expr e) :=
    .head ⟨hn, List.not_mem_nil⟩ (.single ⟨hc, List.not_mem_nil⟩)
  have h := parse_excerpt _ st e hst hholds
  rw [htext] at h
  exact ⟨st, hst, e, hholds, hspan, h⟩

end JsSyntax
