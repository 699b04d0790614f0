import JsSyntax.Proofs.Nodes.Spans
import JsSyntax.Proofs.Token.Lossless

/-! # Where errors are reported

Every error of a program is reported at the start of a token, each at a token behind that of the
error before, and none within a statement (`errors_located`). A failure is reported at a token that
has been read since the last statement or failure, or at the next one, and recovery passes the next
one; so the tokens that are blamed stand in different segments.
-/

set_option autoImplicit false

namespace JsSyntax

open Grammar

/-! ## Lines and columns -/

def Position.location (p : Position) : Location := ⟨p.line, p.column⟩

/-- In an earlier line, or further to the left in the same one. -/
def Location.Before (a b : Location) : Prop :=
  a.line < b.line ∨ a.line = b.line ∧ a.column < b.column

namespace Location.Before

variable {a b c : Location}

theorem irrefl (a : Location) : ¬ a.Before a := by
  simp [Before]

theorem trans (h : a.Before b) (h' : b.Before c) : a.Before c := by
  unfold Before at *
  omega

end Location.Before

theorem Position.before_advance (p : Position) (c : Char) :
    p.location.Before (p.advance c).location := by
  unfold advance
  split
  · exact .inl (Nat.lt_succ_self _)
  · exact .inr ⟨rfl, Nat.lt_succ_self _⟩

theorem Position.before_advanceBy (p : Position) {cs : List Char} (h : cs ≠ []) :
    p.location.Before (p.advanceBy cs).location := by
  induction cs generalizing p with
  | nil => exact absurd rfl h
  | cons c cs ih =>
    rw [advanceBy_cons]
    by_cases hcs : cs = []
    · rw [hcs, advanceBy_nil]
      exact p.before_advance c
    · exact (p.before_advance c).trans (ih _ hcs)

/-- The place of some character of the source, or its end. -/
def Position.In (source : String) (p : Position) : Prop :=
  ∃ u, u <+: source.toList ∧ p = Position.first.advanceBy u

/-- In one source, lines and columns are ordered as offsets are. -/
theorem Position.In.before_iff {source : String} {p q : Position} (hp : p.In source)
    (hq : q.In source) : p.location.Before q.location ↔ p.offset < q.offset := by
  have key : ∀ {p q : Position} {x : List Char}, q = p.advanceBy x → p ≠ q →
      p.location.Before q.location ∧ p.offset < q.offset := by
    rintro p _ x rfl hne
    have hx : x ≠ [] := by
      rintro rfl
      exact hne rfl
    exact ⟨p.before_advanceBy hx, p.offset_lt_advanceBy hx⟩
  obtain ⟨u, hu, rfl⟩ := hp
  obtain ⟨w, hw, rfl⟩ := hq
  by_cases heq : Position.first.advanceBy u = Position.first.advanceBy w
  · rw [heq]
    exact iff_of_false (Location.Before.irrefl _) (Nat.lt_irrefl _)
  rcases List.prefix_or_prefix_of_prefix hu hw with ⟨x, rfl⟩ | ⟨x, rfl⟩
  · obtain ⟨hbefore, hlt⟩ := key (Position.first.advanceBy_append u x) heq
    exact iff_of_true hbefore hlt
  · obtain ⟨hbefore, hlt⟩ := key (Position.first.advanceBy_append w x) (Ne.symm heq)
    exact iff_of_false (fun h => Location.Before.irrefl _ (h.trans hbefore)) (Nat.lt_asymm hlt)

theorem Position.In.le_end {source : String} {p : Position} (hp : p.In source) :
    p.offset ≤ (Position.first.advanceBy source.toList).offset := by
  obtain ⟨u, ⟨rest, hrest⟩, rfl⟩ := hp
  rw [← hrest, Position.advanceBy_append]
  exact Position.offset_le_advanceBy _ rest

theorem eq_eof {source : String} {t : Token} (ht : t ∈ tokenize source) (hk : t.kind = .eof) :
    t = .eof (Position.first.advanceBy source.toList) := by
  obtain ⟨us, hus, hne⟩ := (lexes_tokenize source).closing
  rw [hus] at ht
  rcases List.mem_append.1 ht with ht | ht
  · exact absurd hk (hne t ht)
  · exact List.mem_singleton.1 ht

theorem token_in {source : String} {t : Token} (ht : t ∈ tokenize source) :
    t.span.start.In source ∧ t.span.stop.In source := by
  by_cases hk : t.kind = .eof
  · rw [eq_eof ht hk]
    exact ⟨⟨_, List.prefix_rfl, rfl⟩, ⟨_, List.prefix_rfl, rfl⟩⟩
  · obtain ⟨before, lexeme, rest, kind, hsource, rfl, -⟩ :=
      (lexes_tokenize source).mem_split t ht hk
    rw [← List.append_assoc] at hsource
    refine ⟨⟨before, ?_, rfl⟩, ⟨before ++ lexeme, ⟨rest, hsource.symm⟩, ?_⟩⟩
    · exact (List.prefix_append before lexeme).trans ⟨rest, hsource.symm⟩
    · rw [Position.advanceBy_append]
      rfl

namespace Parse

/-! ## The tokens that errors are reported at -/

/-- The tokens stand one behind another, and the source does not end before they do. -/
structure State.InOrder (s : State) : Prop where
  ordered : Ordered s.rest
  le_stop : ∀ t ∈ s.rest, t.span.stop.offset ≤ s.stop.offset

namespace State.InOrder

variable {s s' : State} {u : List Token}

theorem reads (h : s.InOrder) (hu : s.Reads u s') : s'.InOrder := by
  have hsub : s'.rest.Sublist s.rest := hu.rest ▸ List.sublist_append_right u s'.rest
  refine ⟨h.ordered.sublist hsub, fun t ht => ?_⟩
  rw [hu.stop]
  exact h.le_stop t (hsub.subset ht)

/-- What has been read ends before all that is ahead. -/
theorem stop_le (h : s.InOrder) (hu : s.Reads u s') {t t' : Token} (ht : t ∈ u)
    (ht' : t' ∈ s'.rest ++ [s'.closing]) : t.span.stop.offset ≤ t'.span.start.offset := by
  have hmem : t ∈ s.rest := hu.rest ▸ List.mem_append_left _ ht
  rcases List.mem_append.1 ht' with ht' | ht'
  · have hpairwise := h.ordered.pairwise
    rw [hu.rest] at hpairwise
    exact (List.pairwise_append.1 hpairwise).2.2 t ht t' ht'
  · obtain rfl := List.mem_singleton.1 ht'
    exact Nat.le_trans (h.le_stop t hmem) (Nat.le_of_eq (congrArg Position.offset hu.stop.symm))

end State.InOrder

theorem inOrder_startOf (source : String) : (startOf source).InOrder := by
  refine ⟨ordered_startOf source, fun t ht => ?_⟩
  rw [rest_startOf] at ht
  obtain ⟨hmem, -, hk⟩ : t ∈ tokenize source ∧ t.kind ≠ .comment ∧ t.kind ≠ .eof := by
    simpa using ht
  rw [stop_startOf]
  exact (lexes_tokenize source).stop_le t hmem hk

/-- The span keeps away from the token. -/
def Apart (s : Span) (t : Token) : Prop :=
  t.span.start.offset < s.start.offset ∨ s.stop.offset ≤ t.span.start.offset

/-- The tokens that the errors among the outcomes are reported at, of those ahead. -/
structure Blamed (s : State) (os : List Outcome) (bs : List Token) : Prop where
  location : (os.filterMap errorOf?).map Diagnostic.location = bs.map Token.location
  sublist : bs.Sublist (s.rest ++ [s.closing])
  apart : ∀ st ∈ os.filterMap statementOf?, ∀ t ∈ bs, Apart st.span t

/-- The span of a statement ends with the last of its tokens and starts with the first. -/
theorem exists_ends {s : State} {before u behind : List Token} {st : Statement Span}
    (hs : s.InOrder) (hrest : s.rest = before ++ (u ++ behind))
    (hst : Derives Reading.spanned .statement u st) : ∃ first ∈ u, ∃ last ∈ u,
      st.span = ⟨first.span.start, last.span.stop⟩ := by
  obtain ⟨first, last, hf, hl, hspan⟩ := statement_covers hst
  have hordered : Ordered u := hs.ordered.sublist
    (hrest ▸ (List.sublist_append_left u behind).trans (List.sublist_append_right before _))
  exact ⟨first, List.mem_of_mem_head? hf, last, List.mem_of_getLast? hl,
    hspan.trans (hordered.through hf hl)⟩

namespace Blamed

variable {s s' : State} {u : List Token} {os : List Outcome} {bs : List Token}

/-- What is reported behind a statement is reported behind its span. -/
theorem statement {st : Statement Span} (h : Blamed s' os bs) (hs : s.InOrder) (hu : s.Reads u s')
    (hst : Derives Reading.spanned .statement u st) : Blamed s (.ok st :: os) bs := by
  refine ⟨h.location, ?_, List.forall_mem_cons.2 ⟨fun t ht => .inr ?_, h.apart⟩⟩
  · rw [hu.rest, List.append_assoc, ← hu.closing]
    exact h.sublist.trans (List.sublist_append_right _ _)
  · have hrest : s.rest = [] ++ (u ++ s'.rest) := hu.rest
    obtain ⟨first, -, last, hlast, hspan⟩ := exists_ends hs hrest hst
    rw [hspan]
    exact hs.stop_le hu hlast (h.sublist.subset ht)

/-- What is reported at a token that has been passed is reported in front of all that comes. -/
theorem failure {e : Diagnostic} {t : Token} (h : Blamed s' os bs) (hs : s.InOrder)
    (hu : s.Reads u s') (ht : t ∈ u) (hloc : e.location = t.location)
    (hos : ∀ st, .ok st ∈ os → ∃ before v behind, s'.rest = before ++ (v ++ behind) ∧
      Derives Reading.spanned .statement v st) : Blamed s (.error e :: os) (t :: bs) := by
  refine ⟨by simp [errorOf?, hloc, h.location], ?_, fun st hst => ?_⟩
  · rw [hu.rest, List.append_assoc, ← hu.closing]
    exact (List.singleton_sublist.2 ht).append h.sublist
  · refine List.forall_mem_cons.2 ⟨.inl ?_, h.apart st hst⟩
    obtain ⟨before, v, behind, hrest, hv⟩ := hos st (mem_filterMap_statementOf?.1 hst)
    obtain ⟨first, hfirst, last, -, hspan⟩ := exists_ends (hs.reads hu) hrest hv
    rw [hspan]
    have hahead : first ∈ s'.rest ++ [s'.closing] := by
      rw [hrest]
      simp [hfirst]
    have htmem : t ∈ s.rest := hu.rest ▸ List.mem_append_left _ ht
    exact Nat.lt_of_lt_of_le (hs.ordered.start_lt_stop t htmem) (hs.stop_le hu ht hahead)

/-- A failure at the end is the last outcome. -/
theorem atEnd {e : Diagnostic} {t : Token} (hu : s.Reads u s') (hend : s'.rest = [])
    (ht : t ∈ u ++ [s'.current]) (hloc : e.location = t.location) : Blamed s [.error e] [t] := by
  refine ⟨by simp [errorOf?, hloc], ?_, nofun⟩
  have hcurrent : s'.current = s.closing := by
    rw [State.current, hend, List.headD_nil]
    exact hu.closing
  rwa [List.singleton_sublist, hu.rest, hend, List.append_nil, ← hcurrent]

end Blamed

theorem Runs.eq_nil {d : Deeper} {s s' : State} {os : List Outcome} (h : Runs d s os s')
    (hs : s.rest = []) : os = [] := by
  cases h with
  | done _ => rfl
  | statement hne _ _ => exact absurd hs hne
  | failure hne _ _ => exact absurd hs hne

/-- The errors of a run are reported at tokens one behind another, and away from its statements. -/
theorem Runs.blamed {d : Deeper} [hd : d.Regular] {s s' : State} {os : List Outcome}
    (h : Runs d s os s') (hs : s.InOrder) : ∃ bs, Blamed s os bs := by
  induction h with
  | done _ => exact ⟨[], rfl, List.nil_sublist _, nofun⟩
  | statement _ hok _ ih =>
    obtain ⟨u, hu, -, hst⟩ := statement_reads hok
    obtain ⟨bs, hbs⟩ := ih (hs.reads hu)
    exact ⟨bs, hbs.statement hs hu hst⟩
  | @failure s s₁ _ e _ hne herror hruns ih =>
    obtain ⟨u, hu, hr, -⟩ := failure_reads hne herror
    obtain ⟨u', hu', t, ht, hloc⟩ := hd.statement.locates herror
    obtain rfl := hu.unique hu'
    rw [List.nil_append] at ht
    by_cases hend : s₁.rest = []
    · have hrest := (afterFailure_reads s₁ e).rest
      rw [hend] at hrest
      obtain rfl := hruns.eq_nil (List.append_eq_nil_iff.1 hrest.symm).2
      exact ⟨[t], .atEnd hu hend ht hloc⟩
    · obtain ⟨bs, hbs⟩ := ih (hs.reads hr)
      have htread : t ∈ u ++ passed s₁.rest := by
        rcases List.mem_append.1 ht with ht | ht
        · exact List.mem_append_left _ ht
        · -- Recovery passes the next token.
          obtain ⟨x, rest, hx⟩ := List.exists_cons_of_ne_nil hend
          rw [List.mem_singleton.1 ht, State.current, hx, List.headD_cons]
          exact List.mem_append_right _ List.mem_cons_self
      exact ⟨t :: bs, hbs.failure hs hr htread hloc hruns.derives⟩

end Parse

/-! ## Programs -/

open Parse

/-- The location lies within the span, whose end does not belong to it. -/
def Span.Holds (s : Span) (l : Location) : Prop :=
  ¬ l.Before s.start.location ∧ l.Before s.stop.location

/-- The tokens that a program is made from start one behind another. -/
theorem pairwise_significant (source : String) :
    (significant source).Pairwise fun t t' => t.span.start.offset < t'.span.start.offset := by
  obtain ⟨hordered, hle⟩ := inOrder_startOf source
  rw [significant_eq, List.pairwise_append]
  refine ⟨?_, List.pairwise_singleton .., fun t ht t' ht' => ?_⟩
  · refine hordered.pairwise.imp_of_mem fun ht _ hle => ?_
    exact Nat.lt_of_lt_of_le (hordered.start_lt_stop _ ht) hle
  · obtain rfl := List.mem_singleton.1 ht'
    exact Nat.lt_of_lt_of_le (hordered.start_lt_stop t ht) (hle t ht)

/-- The tokens that the errors of a program are reported at. -/
theorem exists_blamed (source : String) : ∃ bs : List Token,
    (parse source).errors.map Diagnostic.location = bs.map Token.location ∧
    bs.Sublist (significant source) ∧
    ∀ st ∈ (parse source).body, st.span.start.In source ∧ st.span.stop.In source ∧
      ∀ t ∈ bs, Apart st.span t := by
  obtain ⟨os, s, hruns, hparse⟩ := parseWith_runs nestingLimit source
  obtain ⟨bs, hbs⟩ := hruns.blamed (inOrder_startOf source)
  rw [parse, hparse, significant_eq]
  refine ⟨bs, hbs.location, hbs.sublist, fun st hst => ?_⟩
  obtain ⟨u, hu, hlaid⟩ := hruns.strewn.exists_laid (List.mem_map_of_mem hst)
  have hplaced := hlaid.placed hu
  obtain ⟨t, ht, -, -, hstart⟩ := hplaced.starts
  obtain ⟨t', ht', -, -, hstop⟩ := hplaced.stops
  exact ⟨hstart ▸ (token_in ht).1, hstop ▸ (token_in ht').2, hbs.apart st hst⟩

/-- Every error of a program is reported at the start of a token that is no comment, the later ones
behind the earlier ones, at most the last one at the end of the source, and none within the span of
a statement. -/
theorem errors_located (source : String) :
    (∀ e ∈ (parse source).errors, ∃ t ∈ tokenize source, t.kind ≠ .comment ∧
      e.location = t.span.start.location) ∧
    (parse source).errors.Pairwise (fun e e' => e.location.Before e'.location) ∧
    (∀ e ∈ (parse source).errors.dropLast, ∀ t ∈ tokenize source, t.kind = .eof →
      e.location ≠ t.span.start.location) ∧
    ∀ e ∈ (parse source).errors, ∀ st ∈ (parse source).body, ¬ st.span.Holds e.location := by
  obtain ⟨bs, hloc, hsub, hapart⟩ := exists_blamed source
  have hmem : ∀ t ∈ bs, t ∈ tokenize source ∧ t.kind ≠ .comment := fun t ht => by
    simpa [significant] using hsub.subset ht
  have hblamed : ∀ e ∈ (parse source).errors, ∃ t ∈ bs, e.location = t.location := by
    intro e he
    obtain ⟨t, ht, heq⟩ := List.mem_map.1 (hloc ▸ List.mem_map_of_mem he)
    exact ⟨t, ht, heq.symm⟩
  have hpairwise : (parse source).errors.Pairwise fun e e' => e.location.Before e'.location := by
    rw [← List.pairwise_map (f := Diagnostic.location), hloc, List.pairwise_map]
    refine ((pairwise_significant source).sublist hsub).imp_of_mem fun ht ht' hlt => ?_
    exact ((token_in (hmem _ ht).1).1.before_iff (token_in (hmem _ ht').1).1).2 hlt
  refine ⟨fun e he => ?_, hpairwise, fun e he t ht hk heq => ?_, fun e he st hst hholds => ?_⟩
  · obtain ⟨t, ht, heq⟩ := hblamed e he
    exact ⟨t, (hmem t ht).1, (hmem t ht).2, heq⟩
  · -- The last error is reported behind `e`, but no token starts behind the closing one.
    have hne : (parse source).errors ≠ [] := by
      intro hnil
      simp [hnil] at he
    rw [← List.dropLast_append_getLast hne] at hpairwise
    have hbefore := (List.pairwise_append.1 hpairwise).2.2 e he _ (List.mem_singleton_self _)
    obtain ⟨t', ht', heq'⟩ := hblamed _ (List.getLast_mem hne)
    have hlast := token_in (hmem t' ht').1
    rw [heq, heq'] at hbefore
    have hlt := ((token_in ht).1.before_iff hlast.1).1 hbefore
    rw [eq_eof ht hk] at hlt
    exact Nat.not_lt.2 hlast.1.le_end hlt
  · obtain ⟨t, ht, heq⟩ := hblamed e he
    obtain ⟨hstart, hstop, hst⟩ := hapart st hst
    have htoken := (token_in (hmem t ht).1).1
    rw [heq] at hholds
    rcases hst t ht with hlt | hle
    · exact hholds.1 ((htoken.before_iff hstart).2 hlt)
    · exact Nat.not_lt.2 hle ((htoken.before_iff hstop).1 hholds.2)

/-- A target that is none is reported where it starts, and an open bracket at the end. -/
example : (parse "a; [b, c()] = d; (\n").errors.map Diagnostic.location =
    [⟨1, 8⟩, ⟨2, 1⟩] := by decide +kernel

end JsSyntax
