import JsSyntax.Proofs.Counting.Scripted
import JsSyntax.Proofs.Parse.Runs

/-! # The depth is restored

A script that is carried out with the depth counted comes to what its routine comes to with the
levels of nesting that are left, and behind it the depth is what it was before, after a failure as
after a success (`executes_iff`). The statements of a source one after another therefore all start
at the depth of the first one (`counts_iff`).
-/

set_option autoImplicit false

namespace JsSyntax

namespace Parse

variable {α : Type} {P : Presentation} {k k' : Counter}

/-! ## Levels and calls -/

theorem level_zero_call (c : Nested α) : (level 0).call c = fail .nestingTooDeep := by
  cases c <;> rfl

theorem level_succ_call (n : Nat) (c : Nested α) :
    (level (n + 1)).call c = c.routine (level n) := by
  cases c <;> rfl

theorem Counter.result_fail (k : Counter) :
    k.result ((fail .nestingTooDeep : ParseM α) k.state) = .error k.tooDeep k := rfl

theorem Counter.result_eq_ok {r : EStateM.Result Diagnostic State α} {a : α} :
    k.result r = .ok a k' ↔ r = .ok a k'.state ∧ k'.depth = k.depth := by
  obtain ⟨s', n'⟩ := k'
  cases r <;> simp [Counter.result, eq_comm, and_assoc]

theorem Counter.result_eq_error {r : EStateM.Result Diagnostic State α} {e : Diagnostic} :
    k.result r = .error e k' ↔ r = .error e k'.state ∧ k'.depth = k.depth := by
  obtain ⟨s', n'⟩ := k'
  cases r <;> simp [Counter.result, eq_comm, and_assoc]

theorem Counter.result_congr (hd : k'.depth = k.depth) (r : EStateM.Result Diagnostic State α) :
    k'.result r = k.result r := by
  cases r <;> simp [Counter.result, hd]

/-! ## Scripts -/

/-- So many levels of nesting are left. -/
def Counter.Left (k : Counter) (n : Nat) : Prop := k.depth + n = nestingLimit

theorem Counter.Left.of_eq {n : Nat} (h : k.Left n) (hd : k'.depth = k.depth) : k'.Left n := by
  simp only [Counter.Left, hd] at *
  exact h

theorem Counter.Left.enter {n : Nat} (h : k.Left (n + 1)) : k.enter.Left n := by
  simp only [Counter.Left, Counter.enter] at *
  omega

theorem Counter.Left.exists_succ {n : Nat} (h : k.Left n) (hlt : k.depth < nestingLimit) :
    ∃ m, n = m + 1 := by
  unfold Counter.Left at h
  exact ⟨n - 1, by omega⟩

theorem Counter.leave_depth (hd : k'.depth = k.enter.depth) : k'.leave.depth = k.depth := by
  simp [Counter.leave, hd, Counter.enter]

theorem Script.run_bind {β : Type} (d : Deeper) (x : Script α) (f : α → Script β) (s : State) :
    (Script.bind x f).run d s = match x.run d s with
      | .ok a s' => (f a).run d s'
      | .error e s' => .error e s' := by
  change EStateM.bind _ _ s = _
  unfold EStateM.bind
  split <;> simp_all

/-- A script comes to what its routine comes to if its calls do. -/
theorem Script.executes_of_calls {n : Nat}
    (hcall : ∀ {α : Type} (c : Nested α) {k : Counter}, k.Left n →
      Executes P (.call c) k (k.result ((level n).call c k.state)))
    (x : Script α) (hk : k.Left n) : Executes P x k (k.result (x.run (level n) k.state)) := by
  induction x generalizing k with
  | step m => exact .step
  | call c => exact hcall c hk
  | bind x f ihx ihf =>
    have hx := ihx hk
    rw [Script.run_bind]
    cases h : x.run (level n) k.state with
    | ok a s =>
      rw [h] at hx
      exact .bind hx (ihf a (k := { k with state := s }) hk)
    | error e s =>
      rw [h] at hx
      exact .bindError hx

theorem executes_call {n : Nat} (c : Nested α) (hk : k.Left n) :
    Executes P (.call c) k (k.result ((level n).call c k.state)) := by
  induction n generalizing α k with
  | zero =>
    rw [level_zero_call, Counter.result_fail]
    exact .limit (Nat.le_of_eq hk.symm)
  | succ n ih =>
    have hlt : k.depth < nestingLimit := by unfold Counter.Left at hk; omega
    have h := Script.executes_of_calls (P := P) (fun c _ hk => ih c hk) (P.script c) hk.enter
    rw [P.run_script] at h
    rw [level_succ_call]
    change Executes P _ _ (k.enter.result (c.routine (level n) k.state)) at h
    cases hc : c.routine (level n) k.state with
    | ok a s =>
      rw [hc] at h
      exact .call hlt h
    | error e s =>
      rw [hc] at h
      exact .callError hlt h

/-- Nothing but that comes of a script. -/
theorem Executes.eq_result {x : Script α} {r : EStateM.Result Diagnostic Counter α}
    (h : Executes P x k r) {n : Nat} (hk : k.Left n) :
    r = k.result (x.run (level n) k.state) := by
  induction h generalizing n with
  | step => rfl
  | bind _ _ ihx ihf =>
    obtain ⟨hx, hd⟩ := Counter.result_eq_ok.1 (ihx hk).symm
    rw [ihf (hk.of_eq hd), Script.run_bind, hx, Counter.result_congr hd]
  | bindError _ ih =>
    obtain ⟨hx, hd⟩ := Counter.result_eq_error.1 (ih hk).symm
    rw [Script.run_bind, hx]
    exact (Counter.result_eq_error.2 ⟨rfl, hd⟩).symm
  | limit hle =>
    obtain rfl : n = 0 := by unfold Counter.Left at hk; omega
    rw [Script.run, level_zero_call, Counter.result_fail]
  | call hlt _ ih =>
    obtain ⟨n, rfl⟩ := hk.exists_succ hlt
    obtain ⟨hx, hd⟩ := Counter.result_eq_ok.1 (ih hk.enter).symm
    rw [P.run_script] at hx
    rw [Script.run, level_succ_call, eq_comm, Counter.result_eq_ok]
    exact ⟨hx, Counter.leave_depth hd⟩
  | callError hlt _ ih =>
    obtain ⟨n, rfl⟩ := hk.exists_succ hlt
    obtain ⟨hx, hd⟩ := Counter.result_eq_error.1 (ih hk.enter).symm
    rw [P.run_script] at hx
    rw [Script.run, level_succ_call, eq_comm, Counter.result_eq_error]
    exact ⟨hx, Counter.leave_depth hd⟩

/-- A script comes to what its routine comes to, and at the end the depth is what it was. -/
theorem executes_iff {n : Nat} {x : Script α} {r : EStateM.Result Diagnostic Counter α}
    (hk : k.Left n) : Executes P x k r ↔ r = k.result (x.run (level n) k.state) := by
  refine ⟨fun h => h.eq_result hk, ?_⟩
  rintro rfl
  exact Script.executes_of_calls (fun c _ hk => executes_call c hk) x hk

/-! ## Statements -/

/-- The parser goes on after a failure, at the depth it has come back to. -/
def Counter.afterFailure (k : Counter) (e : Diagnostic) : Counter :=
  { k with state := k.state.afterFailure e }

/-- Statement after statement up to the end, with the depth counted. -/
inductive Counts (P : Presentation) : Counter → List Outcome → Counter → Prop where
  | done {k : Counter} : k.state.rest = [] → Counts P k [] k
  | statement {k k' k'' : Counter} {st : Statement Span} {os : List Outcome} :
      k.state.rest ≠ [] → Executes P (.call .statement) k (.ok st k') → Counts P k' os k'' →
      Counts P k (.ok st :: os) k''
  | failure {k k' k'' : Counter} {e : Diagnostic} {os : List Outcome} :
      k.state.rest ≠ [] → Executes P (.call .statement) k (.error e k') →
      Counts P (k'.afterFailure e) os k'' → Counts P k (.error e :: os) k''

theorem Counts.runs {n : Nat} {os : List Outcome} (h : Counts P k os k') (hk : k.Left n) :
    Runs (level n) k.state os k'.state ∧ k'.depth = k.depth := by
  induction h with
  | done hrest => exact ⟨.done hrest, rfl⟩
  | statement hne hx _ ih =>
    obtain ⟨hs, hd⟩ := Counter.result_eq_ok.1 ((executes_iff hk).1 hx).symm
    obtain ⟨hr, hd'⟩ := ih (hk.of_eq hd)
    exact ⟨.statement hne hs hr, hd'.trans hd⟩
  | failure hne hx _ ih =>
    obtain ⟨hs, hd⟩ := Counter.result_eq_error.1 ((executes_iff hk).1 hx).symm
    obtain ⟨hr, hd'⟩ := ih (hk.of_eq hd)
    exact ⟨.failure hne hs hr, hd'.trans hd⟩

theorem Runs.counts {n : Nat} {s s' : State} {os : List Outcome} (h : Runs (level n) s os s')
    (hk : k.Left n) : Counts P ⟨s, k.depth⟩ os ⟨s', k.depth⟩ := by
  induction h with
  | done hrest => exact .done hrest
  | @statement s s' _ st _ hne hs _ ih =>
    have hx : Executes P (.call .statement) ⟨s, k.depth⟩ (.ok st ⟨s', k.depth⟩) :=
      (executes_iff (k := ⟨s, k.depth⟩) hk).2 (Counter.result_eq_ok.2 ⟨hs, rfl⟩).symm
    exact .statement hne hx ih
  | @failure s s' _ e _ hne hs _ ih =>
    have hx : Executes P (.call .statement) ⟨s, k.depth⟩ (.error e ⟨s', k.depth⟩) :=
      (executes_iff (k := ⟨s, k.depth⟩) hk).2 (Counter.result_eq_error.2 ⟨hs, rfl⟩).symm
    exact .failure hne hx ih

/-- Statements that are parsed one after another all start at the depth of the first one. -/
theorem counts_iff {n : Nat} {os : List Outcome} (hk : k.Left n) :
    Counts P k os k' ↔ Runs (level n) k.state os k'.state ∧ k'.depth = k.depth := by
  refine ⟨fun h => h.runs hk, fun ⟨hr, hd⟩ => ?_⟩
  have h : Counts P k os ⟨k'.state, k.depth⟩ := hr.counts hk
  rwa [← hd] at h

end Parse

end JsSyntax
