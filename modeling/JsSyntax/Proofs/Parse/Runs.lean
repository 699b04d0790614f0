import JsSyntax.Parse.Program
import JsSyntax.Proofs.Sound.Moves

/-! # Runs over the top level

`Runs d s os s'`: from the state `s` on, the stretches at the top level have the outcomes `os`, and
`s'` is the state at the end. The relation says what `outcomes` does without its bound
(`runs_outcomes`): every stretch has at least one token, since a statement has one and a recovery
passes one.
-/

set_option autoImplicit false

namespace JsSyntax

open Grammar

namespace Parse

/-! ## Recovery -/

theorem skipped_isPrefix (last : Token) (rest : List Token) : skipped last rest <+: rest := by
  induction rest generalizing last with
  | nil => exact List.nil_prefix
  | cons t rest ih =>
    rw [skipped]
    split
    · exact List.nil_prefix
    · exact (List.prefix_cons_inj t).2 (ih t)

/-- What recovery passes. -/
def passed : List Token → List Token
  | [] => []
  | t :: rest => t :: skipped t rest

theorem passed_isPrefix (rest : List Token) : passed rest <+: rest := by
  cases rest with
  | nil => exact List.nil_prefix
  | cons t rest => exact (List.prefix_cons_inj t).2 (skipped_isPrefix t rest)

theorem passed_ne_nil {rest : List Token} (h : rest ≠ []) : passed rest ≠ [] := by
  cases rest with
  | nil => exact absurd rfl h
  | cons t rest => simp [passed]

theorem recover_reads (s : State) : s.Reads (passed s.rest) (recover s) := by
  unfold recover
  cases hr : s.rest with
  | nil => exact ⟨by simp [passed, hr], by simp [passed], rfl⟩
  | cons t rest =>
    have hp := List.prefix_iff_eq_append.1 (passed_isPrefix (t :: rest))
    refine ⟨?_, ?_, rfl⟩
    · rw [hr]
      exact hp.symm
    · simp only [passed, List.getLast?_eq_some_getLast (List.cons_ne_nil t _), Option.some_or]

/-- The state in which parsing goes on after the failure `e`. -/
def State.afterFailure (s : State) (e : Diagnostic) : State :=
  recover { s with events := .failed e :: s.events }

theorem afterFailure_reads (s : State) (e : Diagnostic) :
    s.Reads (passed s.rest) (s.afterFailure e) := by
  obtain ⟨h₁, h₂, h₃⟩ := recover_reads { s with events := .failed e :: s.events }
  exact ⟨h₁, h₂, h₃⟩

/-! ## The relation -/

inductive Runs (d : Deeper) : State → List Outcome → State → Prop where
  | done {s : State} : s.rest = [] → Runs d s [] s
  | statement {s s' s'' : State} {st : Statement Span} {os : List Outcome} :
      s.rest ≠ [] → d.statement s = .ok st s' → Runs d s' os s'' → Runs d s (.ok st :: os) s''
  | failure {s s' s'' : State} {e : Diagnostic} {os : List Outcome} :
      s.rest ≠ [] → d.statement s = .error e s' → Runs d (s'.afterFailure e) os s'' →
      Runs d s (.error e :: os) s''

section
variable {d : Deeper} [hd : d.Regular]

/-- A statement has at least one token. -/
theorem statement_reads {s s' : State} {st : Statement Span} (h : d.statement s = .ok st s') :
    ∃ u, s.Reads u s' ∧ u ≠ [] ∧ Derives Reading.spanned .statement u st := by
  obtain ⟨u, hu, hst⟩ := hd.sound.statement h
  exact ⟨u, hu, hst.ne_nil rfl, hst⟩

/-- After a failure in front of a token, parsing goes on behind that token. -/
theorem failure_reads {s s' : State} {e : Diagnostic} (hs : s.rest ≠ [])
    (h : d.statement s = .error e s') :
    ∃ u, s.Reads u s' ∧ s.Reads (u ++ passed s'.rest) (s'.afterFailure e) ∧
      u ++ passed s'.rest ≠ [] := by
  obtain ⟨u, hu⟩ := hd.statement.error h
  refine ⟨u, hu, hu.trans (afterFailure_reads s' e), ?_⟩
  intro hnil
  obtain ⟨rfl, hp⟩ := List.append_eq_nil_iff.1 hnil
  have hrest := hu.rest
  by_cases hr : s'.rest = []
  · rw [hr] at hrest
    exact hs hrest
  · exact passed_ne_nil hr hp

theorem runs_outcomes {fuel : Nat} {s : State} (hf : s.rest.length ≤ fuel) :
    Runs d s (outcomes d fuel s).1 (outcomes d fuel s).2 := by
  induction fuel generalizing s with
  | zero => exact .done (List.length_eq_zero_iff.1 (Nat.le_zero.1 hf))
  | succ fuel ih =>
    rw [outcomes]
    by_cases hs : s.rest = []
    · rw [if_pos (by simp [State.atEnd, hs])]
      exact .done hs
    · rw [if_neg (by simp [State.atEnd, hs])]
      unfold nextOutcome
      cases h : d.statement s with
      | ok st s' =>
        obtain ⟨u, hu, hne, -⟩ := statement_reads h
        have := hu.lt_of_ne_nil hne
        exact .statement hs h (ih (by omega))
      | error e s' =>
        obtain ⟨u, -, hr, hne⟩ := failure_reads hs h
        have := hr.lt_of_ne_nil hne
        exact .failure hs h (ih (by omega))

/-! ## What a run passes -/

/-- A run passes all tokens ahead. -/
theorem Runs.reads {s s' : State} {os : List Outcome} (h : Runs d s os s') :
    s.Reads s.rest s' ∧ s'.rest = [] := by
  induction h with
  | @done s hs => exact ⟨hs ▸ .refl s, hs⟩
  | statement _ h _ ih =>
    obtain ⟨u, hu, -⟩ := statement_reads h
    exact ⟨hu.rest ▸ hu.trans ih.1, ih.2⟩
  | failure hs h _ ih =>
    obtain ⟨u, -, hr, -⟩ := failure_reads hs h
    exact ⟨hr.rest ▸ hr.trans ih.1, ih.2⟩

end

/-! ## The program of a source -/

/-- The tokens of a source that are no comments. -/
def significant (source : String) : List Token :=
  (tokenize source).filter (·.kind ≠ .comment)

/-- The state before the first token of a source. -/
def startOf (source : String) : State :=
  { State.ofTokens (significant source) with
    events := .parsing (significant source).length ::
      (tokenizeEvents source (tokenize source)).reverse }

/-- The program of a source is made of the outcomes of one run. -/
theorem parseWith_runs (limit : Nat) (source : String) :
    ∃ os s, Runs (level limit) (startOf source) os s ∧
      parseWith limit source = ⟨os.filterMap statementOf?,
        (tokenize source).filter (·.kind = .comment), os.filterMap errorOf?,
        s.spanFrom (startOf source).current.span⟩ := by
  refine ⟨_, _, runs_outcomes (Nat.le_refl _), rfl⟩

end Parse

end JsSyntax
