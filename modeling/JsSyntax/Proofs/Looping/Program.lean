import JsSyntax.Proofs.Looping.Coded
import JsSyntax.Proofs.Parse.Runs
import JsSyntax.Proofs.RoundTrip.Takes

/-! # The loops of the top level

Recovery passes one token after another, and a program is read statement after statement. Both are
written here as loops of steps, like the other loops of the parser, and come to what `recover` and
`outcomes` come to.
-/

set_option autoImplicit false

namespace JsSyntax

namespace Parse

/-! ## Recovery -/

/-- The number of tokens ahead. -/
def ahead : ParseM Nat := do return (← get).rest.length

/-- Has a semicolon been read last? -/
def behindSemicolon : ParseM Bool := do return (← get).last.any (·.isPunctuation ";")

/-- Passes a token, unless a statement may start in front of it. -/
def passOne : ParseM (Option Unit) := do
  if ← atEnd then return none
  else if ← behindSemicolon then return none
  else if startsStatement (← peek) then return none
  else
    discard advance
    return some ()

/-- Recovery, one token after another. -/
def resync : ParseM Unit := do
  let before ← ahead
  discard advance
  iterate (fun _ => passOne) ()
  emit (.recovered (before - (← ahead)))

instance Moves.ahead : Moves Parse.ahead := of_looking fun _ => ⟨_, rfl⟩

instance Moves.behindSemicolon : Moves Parse.behindSemicolon := of_looking fun _ => ⟨_, rfl⟩

section
variable {t : Token} {rest : List Token} {s : State}

theorem passOne_of_nil (hs : s.rest = []) : passOne s = .ok none s := by
  rw [passOne, atEnd_bind, if_pos (by simp [State.atEnd, hs])]
  rfl

theorem passOne_of_cons (hs : s.rest = t :: rest) :
    passOne s = if s.last.any (·.isPunctuation ";") || startsStatement t then .ok none s
      else .ok (some ()) (s.behind t rest) := by
  have hcurrent : s.current = t := by simp [State.current, hs]
  rw [passOne, atEnd_bind, if_neg (by simp [State.atEnd, hs])]
  show (if s.last.any (·.isPunctuation ";") then pure none
    else peek >>= fun t => if startsStatement t then pure none
      else discard advance >>= fun _ => pure (some ()) : ParseM (Option Unit)) s = _
  cases s.last.any (·.isPunctuation ";") with
  | true => rfl
  | false =>
    rw [if_neg (by simp), Bool.false_or, peek_bind, hcurrent]
    cases startsStatement t with
    | true => rfl
    | false => exact bind_of_ok (discard_advance_of_rest hs)

end

instance Strides.passOne : Strides Option.isSome Parse.passOne := of_some fun {s s' a} h => by
  cases hs : s.rest with
  | nil =>
    rw [passOne_of_nil hs] at h
    cases h
  | cons t rest =>
    rw [passOne_of_cons hs] at h
    split at h
    · cases h
    · cases h
      exact Nat.lt_succ_self _

/-- The loop passes what recovery skips. -/
theorem iterate_passOne {t : Token} {s : State} (hs : s.last = some t) :
    iterate (fun _ => passOne) () s = .ok () { s with
      last := (skipped t s.rest).getLast?.or s.last
      rest := s.rest.drop (skipped t s.rest).length } := by
  obtain ⟨last, rest, stop, events⟩ := s
  obtain rfl : last = some t := hs
  induction rest generalizing t with
  | nil =>
    rw [iterate_eq, bind_of_ok (passOne_of_nil rfl)]
    rfl
  | cons t' rest ih =>
    have hpass := passOne_of_cons (s := ⟨some t, t' :: rest, stop, events⟩) rfl
    rw [Option.any_some] at hpass
    rw [iterate_eq, skipped]
    split
    · rename_i hstop
      rw [if_pos hstop] at hpass
      rw [bind_of_ok hpass]
      rfl
    · rename_i hstop
      rw [if_neg hstop] at hpass
      rw [bind_of_ok hpass]
      refine ih.trans ?_
      simp [List.getLast?_cons]

theorem ahead_bind {β : Type} (f : Nat → ParseM β) (s : State) :
    (ahead >>= f) s = f s.rest.length s := rfl

theorem resync_eq (s : State) : resync s = .ok () (recover s) := by
  obtain ⟨last, rest, stop, events⟩ := s
  cases rest with
  | nil =>
    have hadvance : (discard advance : ParseM Unit) ⟨last, [], stop, events⟩ =
        .ok () ⟨last, [], stop, events⟩ := rfl
    have hloop : iterate (fun _ => passOne) () ⟨last, [], stop, events⟩ =
        .ok () ⟨last, [], stop, events⟩ := by
      rw [iterate_eq, bind_of_ok (passOne_of_nil rfl)]
      rfl
    rw [resync, ahead_bind, bind_of_ok hadvance, bind_of_ok hloop, ahead_bind]
    rfl
  | cons t rest =>
    have hskipped : (skipped t rest).length ≤ rest.length := (skipped_isPrefix t rest).length_le
    have hcount : (t :: rest).length - (rest.drop (skipped t rest).length).length =
        (t :: skipped t rest).length := by
      simp only [List.length_cons, List.length_drop]
      omega
    rw [resync, ahead_bind, bind_of_ok (discard_advance_of_rest rfl),
      bind_of_ok (iterate_passOne rfl), ahead_bind]
    show EStateM.Result.ok () (State.mk ((skipped t rest).getLast?.or (some t))
      (rest.drop (skipped t rest).length) stop (.recovered ((t :: rest).length -
        (rest.drop (skipped t rest).length).length) :: events)) = _
    rw [hcount]
    simp [recover, List.getLast?_cons]

/-! ## Statements -/

/-- The next outcome at the top level, if a token is ahead. -/
def nextItem (d : Deeper) : ParseM (Item Outcome) := do
  if ← atEnd then return .stop
  else
    match ← attempt d.statement with
    | .ok st => return .more (.ok st)
    | .error e =>
      emit (.failed e)
      resync
      return .more (.error e)

/-- The outcomes up to the end. -/
def everyOutcome (d : Deeper) : ParseM (List Outcome) := collect (nextItem d)

section
variable {d : Deeper} {s s' : State}

theorem nextItem_of_nil (hs : s.rest = []) : nextItem d s = .ok .stop s := by
  rw [nextItem, atEnd_bind, if_pos (by simp [State.atEnd, hs])]
  rfl

theorem nextItem_of_ok {st : Statement Span} (hs : s.rest ≠ [])
    (h : d.statement s = .ok st s') : nextItem d s = .ok (.more (.ok st)) s' := by
  have hattempt : attempt d.statement s = .ok (.ok st) s' := by
    unfold attempt
    rw [h]
  rw [nextItem, atEnd_bind, if_neg (by simp [State.atEnd, hs]), bind_of_ok hattempt]
  rfl

theorem nextItem_of_error {e : Diagnostic} (hs : s.rest ≠ [])
    (h : d.statement s = .error e s') :
    nextItem d s = .ok (.more (.error e)) (s'.afterFailure e) := by
  have hattempt : attempt d.statement s = .ok (.error e) s' := by
    unfold attempt
    rw [h]
  rw [nextItem, atEnd_bind, if_neg (by simp [State.atEnd, hs]), bind_of_ok hattempt]
  show (emit (.failed e) >>= fun _ => resync >>= fun _ =>
    (pure (.more (.error e)) : ParseM (Item Outcome))) s' = _
  rw [emit_bind, bind_of_ok (resync_eq _)]
  rfl

end

section
variable {d : Deeper} [d.Regular] {s s' : State}

instance Strides.nextItem : Strides Item.goesOn (Parse.nextItem d) where
  lt {s s' x} hx h := by
    by_cases hs : s.rest = []
    · rw [nextItem_of_nil hs] at h
      cases h
      cases hx
    · cases hst : d.statement s with
      | ok st s₁ =>
        rw [nextItem_of_ok hs hst] at h
        cases h
        obtain ⟨u, hu, hne, -⟩ := statement_reads hst
        exact hu.lt_of_ne_nil hne
      | error e s₁ =>
        rw [nextItem_of_error hs hst] at h
        cases h
        obtain ⟨u, -, hr, hne⟩ := failure_reads hs hst
        exact hr.lt_of_ne_nil hne

theorem Runs.everyOutcome_eq {os : List Outcome} (h : Runs d s os s') :
    everyOutcome d s = .ok os s' := by
  unfold everyOutcome
  induction h with
  | done hs => rw [collect_eq, bind_of_ok (nextItem_of_nil hs)]; rfl
  | statement hs hst _ ih =>
    rw [collect_eq, bind_of_ok (nextItem_of_ok hs hst)]
    exact bind_of_ok ih
  | failure hs hst _ ih =>
    rw [collect_eq, bind_of_ok (nextItem_of_error hs hst)]
    exact bind_of_ok ih

theorem everyOutcome_eq (s : State) :
    everyOutcome d s = .ok (outcomes d s.rest.length s).1 (outcomes d s.rest.length s).2 :=
  (runs_outcomes (Nat.le_refl _)).everyOutcome_eq

end

/-! ## Code -/

namespace Coded

instance ahead : Coded fun _ => Parse.ahead := ofStep _

instance behindSemicolon : Coded fun _ => Parse.behindSemicolon := ofStep _

instance passOne : Coded fun _ => Parse.passOne := by
  delta Parse.passOne
  infer_instance

instance resync : Coded fun _ => Parse.resync := by
  delta Parse.resync
  infer_instance

instance attempt {α : Type} {f : Deeper → ParseM α} [hf : Coded f] :
    Coded fun d => Parse.attempt (f d) where
  code := .attempt hf.code
  run_code d := by rw [Code.run, hf.run_code]
  paced := hf.paced

/-- A result is followed by one routine for a failure and one for a success. -/
instance (priority := low) bindExcept {ε α β : Type} {f : Deeper → ParseM (Except ε α)}
    {g : Deeper → Except ε α → ParseM β} [Coded f] [he : ∀ e, Coded fun d => g d (.error e)]
    [ho : ∀ a, Coded fun d => g d (.ok a)] : Coded fun d => f d >>= g d :=
  andThen fun
    | .error e => he e
    | .ok a => ho a

instance nextItem : Coded fun d => Parse.nextItem d := by
  delta Parse.nextItem
  infer_instance

instance everyOutcome : Coded fun d => Parse.everyOutcome d := by
  delta Parse.everyOutcome
  infer_instance

end Coded

end Parse

end JsSyntax
