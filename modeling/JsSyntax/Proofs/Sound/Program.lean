import JsSyntax.Proofs.Grammar.Translate
import JsSyntax.Proofs.Parse.Stretches

/-! # Soundness of programs

Every statement of a program is a phrase of the grammar: of the tokens within its span
(`body_derives`). The spans of a derivation are what connects a statement with its tokens; they are
erased at the end.
-/

set_option autoImplicit false

namespace JsSyntax

open Grammar

namespace Parse

/-! ## The span of a statement -/

theorem statement_covers {u : List Token} {st : Statement Span}
    (h : Derives Reading.spanned .statement u st) : Reading.spanned.Covers u st.span := by
  cases h with
  | functionStatement h =>
    cases h
    assumption
  | classStatement h =>
    cases h
    assumption
  | blockStatement h =>
    cases h
    assumption
  | _ => assumption

/-! ## Statements of a run -/

/-- Every statement of a run is a phrase of some of the tokens ahead. -/
theorem Runs.derives {d : Deeper} [d.Regular] {s s' : State} {os : List Outcome}
    (h : Runs d s os s') : ∀ st, .ok st ∈ os → ∃ before u behind,
      s.rest = before ++ (u ++ behind) ∧ Derives Reading.spanned .statement u st := by
  induction h with
  | done _ => simp
  | @statement s s' _ st os _ h _ ih =>
    intro st' hst'
    obtain ⟨u, hu, -, hst⟩ := statement_reads h
    rcases List.mem_cons.1 hst' with heq | hst'
    · cases heq
      exact ⟨[], u, s'.rest, hu.rest, hst⟩
    · obtain ⟨before, v, behind, hrest, hv⟩ := ih st' hst'
      exact ⟨u ++ before, v, behind, by rw [hu.rest, hrest, List.append_assoc], hv⟩
  | @failure s s' _ e os hs h _ ih =>
    intro st' hst'
    obtain ⟨u, -, hr, -⟩ := failure_reads hs h
    rcases List.mem_cons.1 hst' with heq | hst'
    · cases heq
    · obtain ⟨before, v, behind, hrest, hv⟩ := ih st' hst'
      exact ⟨u ++ passed s'.rest ++ before, v, behind, by rw [hr.rest, hrest, List.append_assoc _ before],
        hv⟩

theorem mem_filterMap_statementOf? {os : List Outcome} {st : Statement Span} :
    st ∈ os.filterMap statementOf? ↔ .ok st ∈ os := by
  rw [List.mem_filterMap]
  constructor
  · rintro ⟨o, ho, hst⟩
    cases o with
    | ok st' =>
      cases hst
      exact ho
    | error e => cases hst
  · exact fun h => ⟨.ok st, h, rfl⟩

end Parse

/-! ## Statements of a program -/

open Parse

/-- The kinds and texts of the tokens of a source that lie within a span, comments left out. -/
def phraseWithin (source : String) (s : Span) : List (TokenKind × String) :=
  ((tokenize source).filter fun t =>
    (t.kind ≠ .comment ∧ t.kind ≠ .eof) ∧ Within s t).map fun t => (t.kind, t.value)

theorem phraseWithin_eq (source : String) (s : Span) :
    phraseWithin source s =
      ((startOf source).rest.filter (Within s ·)).map Translation.erase.token := by
  rw [phraseWithin, rest_startOf, List.filter_filter]
  show List.map Translation.erase.token _ = _
  congr 2
  funext t
  simp [Bool.and_comm]

/-- Every statement of a program is a phrase of the grammar: the tokens within its span derive it,
whatever their layout. -/
theorem body_derives (source : String) : ∀ st ∈ (parse source).body,
    Derives Reading.bare .statement (phraseWithin source st.span) st.erase := by
  intro st hst
  obtain ⟨os, s, hruns, hparse⟩ := parseWith_runs nestingLimit source
  have hst : .ok st ∈ os := by
    rw [parse, hparse] at hst
    exact mem_filterMap_statementOf?.1 hst
  obtain ⟨before, u, behind, hrest, hu⟩ := hruns.derives st hst
  have hfilter := filter_within (hrest ▸ ordered_startOf source) (statement_covers hu)
  rw [phraseWithin_eq, hrest, hfilter]
  exact hu.translate Translation.erase

/-- The statement `x;`. -/
theorem body_derives_name :
    Derives Reading.bare .statement [(.identifier, "x"), (.punctuation, ";")]
      (.expression (.ident ⟨"x", ()⟩) ()) := by
  have hbody : (parse "x;").body = [.expression (.ident ⟨"x", ⟨⟨0, 1, 1⟩, ⟨1, 1, 2⟩⟩⟩)
      ⟨⟨0, 1, 1⟩, ⟨2, 1, 3⟩⟩] := by rfl
  have hphrase : phraseWithin "x;" ⟨⟨0, 1, 1⟩, ⟨2, 1, 3⟩⟩ =
      [(.identifier, "x"), (.punctuation, ";")] := by decide +kernel
  have h := body_derives "x;" _ (hbody ▸ List.mem_singleton_self _)
  rw [Statement.span, hphrase] at h
  exact h

end JsSyntax
