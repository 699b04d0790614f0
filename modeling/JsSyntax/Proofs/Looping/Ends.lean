import JsSyntax.Proofs.Counting.Depth
import JsSyntax.Proofs.Looping.Code

/-! # Every loop ends

Code whose loops read a token in every round comes to an end, and it comes to what its routine comes
to, which has a bound on every loop (`performs_iff`): no loop ever gets to its bound. On the way the
depth is never below the one at the start and never above the limit, and at the end it is the one at
the start, behind a failure as behind a success (`Performs.depth_bounds`).
-/

set_option autoImplicit false

namespace JsSyntax

namespace Parse

variable {α β : Type}

/-! ## Bounds of loops -/

/-- What follows a step matters only where the step leads. -/
theorem bind_congr_ok {m : ParseM α} {f g : α → ParseM β} {s : State}
    (h : ∀ {a s'}, m s = .ok a s' → f a s' = g a s') : (m >>= f) s = (m >>= g) s := by
  cases hm : m s with
  | ok a s' => rw [bind_of_ok hm, bind_of_ok hm, h hm]
  | error e s' => rw [bind_of_error hm, bind_of_error hm]

theorem bind_congr_step {m m' : ParseM α} {f : α → ParseM β} {s : State} (h : m s = m' s) :
    (m >>= f) s = (m' >>= f) s := by
  show EStateM.bind m f s = EStateM.bind m' f s
  unfold EStateM.bind
  rw [h]

section
variable {round : α → ParseM (Option α)} [hround : ∀ a, Strides Option.isSome (round a)]

/-- The bound of a loop makes no difference if it is larger than the number of tokens ahead. -/
theorem iterate_go_congr {fuel fuel' : List Token} {a : α} {s : State}
    (hf : s.rest.length < fuel.length) (hf' : s.rest.length < fuel'.length) :
    iterate.go round fuel a s = iterate.go round fuel' a s := by
  induction fuel generalizing fuel' a s with
  | nil => simp at hf
  | cons t fuel ih =>
    cases fuel' with
    | nil => simp at hf'
    | cons t' fuel' =>
      refine bind_congr_ok fun {o s'} h => ?_
      cases o with
      | none => rfl
      | some b =>
        -- The round has read a token, so what is left of both bounds still covers the rest.
        have := (hround a).lt rfl h
        simp only [List.length_cons] at hf hf'
        exact ih (by omega) (by omega)

theorem iterate_eq (a : α) : iterate round a = round a >>= fun
    | some b => iterate round b
    | none => pure a := by
  funext s
  show iterate.go round (s.closing :: s.rest) a s = _
  refine bind_congr_ok fun {o s'} h => ?_
  cases o with
  | none => rfl
  | some b => exact iterate_go_congr ((hround a).lt rfl h) (by simp [State.ahead])

end

section
variable {round : ParseM (Item α)} [hround : Strides Item.goesOn round]

theorem collect_go_congr {fuel fuel' : List Token} {s : State}
    (hf : s.rest.length < fuel.length) (hf' : s.rest.length < fuel'.length) :
    collect.go round fuel s = collect.go round fuel' s := by
  induction fuel generalizing fuel' s with
  | nil => simp at hf
  | cons t fuel ih =>
    cases fuel' with
    | nil => simp at hf'
    | cons t' fuel' =>
      refine bind_congr_ok fun {x s'} h => ?_
      cases x with
      | stop => rfl
      | last a => rfl
      | more a =>
        have := hround.lt rfl h
        simp only [List.length_cons] at hf hf'
        exact bind_congr_step (ih (by omega) (by omega))

theorem collect_eq : collect round = round >>= fun
    | .stop => pure []
    | .last a => pure [a]
    | .more a => collect round >>= fun as => pure (a :: as) := by
  funext s
  show collect.go round (s.closing :: s.rest) s = _
  refine bind_congr_ok fun {x s'} h => ?_
  cases x with
  | stop => rfl
  | last a => rfl
  | more a =>
    exact bind_congr_step (collect_go_congr (hround.lt rfl h) (by simp [State.ahead]))

end

/-! ## The depth -/

namespace Upshot

theorem counter_leave (u : Upshot α) : u.leave.counter = u.counter.leave := by
  cases u <;> rfl

/-- Between the counting up and the counting down the depth is left as it is. -/
theorem leave_enter_result (k : Counter) (r : EStateM.Result Diagnostic State α) :
    leave (k.enter.result r) = k.result r := by
  cases r <;> rfl

theorem counter_attempt (u : Upshot α) : u.attempt.counter = u.counter := by
  cases u <;> rfl

end Upshot

section
variable {L : Library} {x : Code α} {k : Counter} {depths : List Nat} {u : Upshot α}

/-- The depth stays between the one at the start and the limit, and comes back to the one at the
start. -/
theorem Performs.depth_bounds (h : Performs L x k depths u) (hk : k.depth ≤ nestingLimit) :
    u.counter.depth = k.depth ∧ ∀ n ∈ depths, k.depth ≤ n ∧ n ≤ nestingLimit := by
  induction h with
  | @step _ m k =>
    refine ⟨?_, nofun⟩
    cases m k.state <;> rfl
  | @bind _ _ x f k k' _ _ a u _ _ ihx ihf =>
    obtain ⟨hd, hx⟩ := ihx hk
    have hd : k'.depth = k.depth := hd
    rw [hd] at ihf
    obtain ⟨hd', hf⟩ := ihf hk
    refine ⟨hd', fun n hn => ?_⟩
    rcases List.mem_append.1 hn with hn | hn
    · exact hx n hn
    · exact hf n hn
  | bindError _ ih => exact ih hk
  | attempt _ ih =>
    rw [Upshot.counter_attempt]
    exact ih hk
  | iterate _ ih => exact ih hk
  | collect _ ih => exact ih hk
  | limit _ => exact ⟨rfl, nofun⟩
  | @call _ c k _ u hlt _ ih =>
    -- Inside the call the bound below is one more, and there is room for that below the limit.
    obtain ⟨hd, hx⟩ := ih hlt
    rw [Upshot.counter_leave]
    have hback : u.counter.leave.depth = k.depth := Counter.leave_depth hd
    have henter : k.enter.depth = k.depth + 1 := rfl
    refine ⟨hback, fun n hn => ?_⟩
    simp only [List.cons_append, List.mem_cons, List.mem_append, List.not_mem_nil, or_false] at hn
    rcases hn with rfl | hn | rfl
    · omega
    · have := hx n hn
      omega
    · omega

end

/-! ## Loops that read -/

theorem Code.paced_pure (a : α) : (Code.step (pure a)).Paced :=
  (inferInstance : Forward (pure a : ParseM α))

section
variable {round : α → Code (Option α)} {a : α}

theorem Code.Paced.iterateOnce (h : (Code.iterate round a).Paced) :
    (Code.iterateOnce round a).Paced :=
  ⟨(h a).1, fun
    | some _ => h
    | none => paced_pure a⟩

theorem Code.Paced.run_iterate {n : Nat} (h : (Code.iterate round a).Paced) :
    (Code.iterate round a).run (level n) = (Code.iterateOnce round a).run (level n) := by
  have := fun a => (h a).2 n
  refine (iterate_eq a).trans ?_
  show _ = (round a).run (level n) >>= _
  congr 1
  funext o
  cases o <;> rfl

end

section
variable {round : Code (Item α)}

theorem Code.Paced.collectOnce (h : (Code.collect round).Paced) :
    (Code.collectOnce round).Paced :=
  ⟨h.1, fun
    | .stop => paced_pure []
    | .last a => paced_pure [a]
    | .more a => ⟨h, fun as => paced_pure (a :: as)⟩⟩

theorem Code.Paced.run_collect {n : Nat} (h : (Code.collect round).Paced) :
    (Code.collect round).run (level n) = (Code.collectOnce round).run (level n) := by
  have := h.2 n
  refine collect_eq.trans ?_
  show _ = round.run (level n) >>= _
  congr 1
  funext x
  cases x <;> rfl

end

/-! ## Ends -/

/-- The code comes to what its routine comes to with `n` levels of nesting left. -/
def Code.Ends (L : Library) (n : Nat) (x : Code α) (k : Counter) : Prop :=
  ∃ depths, Performs L x k depths (k.result (x.run (level n) k.state))

namespace Code.Ends

variable {L : Library} {n : Nat} {k : Counter}

theorem step (m : ParseM α) : (Code.step m).Ends L n k := ⟨[], .step⟩

/-- What follows is performed only if what comes first succeeds, and from where that ends. -/
theorem bind {x : Code α} {f : α → Code β} (hx : x.Ends L n k)
    (hf : ∀ {a s}, x.run (level n) k.state = .ok a s → (f a).Ends L n { k with state := s }) :
    (Code.bind x f).Ends L n k := by
  obtain ⟨depths, hx⟩ := hx
  unfold Code.Ends
  rw [Code.run]
  cases h : x.run (level n) k.state with
  | ok a s =>
    rw [h] at hx
    obtain ⟨depths', hf⟩ := hf h
    rw [bind_of_ok h]
    exact ⟨_, .bind hx hf⟩
  | error e s =>
    rw [h] at hx
    rw [bind_of_error h]
    exact ⟨_, .bindError hx⟩

theorem attempt {x : Code α} (hx : x.Ends L n k) : (Code.attempt x).Ends L n k := by
  obtain ⟨depths, hx⟩ := hx
  have hattempt := hx.attempt
  refine ⟨depths, ?_⟩
  show Performs L _ k depths (k.result (Parse.attempt (x.run (level n)) k.state))
  unfold Parse.attempt
  cases h : x.run (level n) k.state with
  | ok a s => rwa [h] at hattempt
  | error e s => rwa [h] at hattempt

theorem iterate {round : α → Code (Option α)} {a : α} (hp : (Code.iterate round a).Paced)
    (h : (Code.iterateOnce round a).Ends L n k) : (Code.iterate round a).Ends L n k := by
  obtain ⟨depths, h⟩ := h
  rw [← hp.run_iterate] at h
  exact ⟨depths, h.iterate⟩

theorem collect {round : Code (Item α)} (hp : (Code.collect round).Paced)
    (h : (Code.collectOnce round).Ends L n k) : (Code.collect round).Ends L n k := by
  obtain ⟨depths, h⟩ := h
  rw [← hp.run_collect] at h
  exact ⟨depths, h.collect⟩

/-- A folding loop whose rounds end: the tokens ahead get fewer from round to round. -/
theorem of_rounds {round : α → Code (Option α)} {a : α} (hp : (Code.iterate round a).Paced)
    (hround : ∀ (a : α) {k : Counter}, k.Left n → (round a).Ends L n k) (hk : k.Left n) :
    (Code.iterate round a).Ends L n k := by
  induction hlen : k.state.rest.length using Nat.strongRecOn generalizing a k with
  | ind len ih =>
    subst hlen
    refine iterate hp ((hround a hk).bind fun {o s} h => ?_)
    cases o with
    | none => exact step _
    | some b => exact ih _ (((hp a).2 n).lt rfl h) hp (k := { k with state := s }) hk rfl

theorem of_items {round : Code (Item α)} (hp : (Code.collect round).Paced)
    (hround : ∀ {k : Counter}, k.Left n → round.Ends L n k) (hk : k.Left n) :
    (Code.collect round).Ends L n k := by
  induction hlen : k.state.rest.length using Nat.strongRecOn generalizing k with
  | ind len ih =>
    subst hlen
    refine collect hp ((hround hk).bind fun {x s} h => ?_)
    cases x with
    | stop => exact step _
    | last a => exact step _
    | more a =>
      have hmore := ih _ ((hp.2 n).lt rfl h) (k := { k with state := s }) hk rfl
      exact hmore.bind fun _ => step _

/-- Code ends if its calls do. -/
theorem of_calls
    (hcall : ∀ {α : Type} (c : Nested α) {k : Counter}, k.Left n → (Code.call c).Ends L n k)
    (x : Code α) (hp : x.Paced) (hk : k.Left n) : x.Ends L n k := by
  induction x generalizing k with
  | step m => exact step m
  | call c => exact hcall c hk
  | bind x f ihx ihf => exact (ihx hp.1 hk).bind fun {a s} _ => ihf a (hp.2 a) hk
  | attempt x ih => exact (ih hp hk).attempt
  | iterate round a ih => exact of_rounds hp (fun a _ hk => ih a (hp a).1 hk) hk
  | collect round ih => exact of_items hp (fun hk => ih hp.1 hk) hk

/-- A nested routine ends, by induction on the levels that are left. -/
theorem call (c : Nested α) (hk : k.Left n) : (Code.call c).Ends L n k := by
  induction n generalizing α k with
  | zero =>
    refine ⟨[], ?_⟩
    rw [Code.run, level_zero_call, Counter.result_fail]
    exact .limit (Nat.le_of_eq hk.symm)
  | succ n ih =>
    have hlt : k.depth < nestingLimit := by
      unfold Counter.Left at hk
      omega
    obtain ⟨depths, h⟩ := of_calls (fun c _ hk => ih c hk) (L.code c) (L.paced c) hk.enter
    rw [L.run_code] at h
    have hcall := h.call hlt
    rw [Upshot.leave_enter_result] at hcall
    unfold Code.Ends
    rw [Code.run, level_succ_call]
    exact ⟨_, hcall⟩

end Code.Ends

section
variable {L : Library} {n : Nat} {k : Counter} {x : Code α} {u : Upshot α}

/-- Code comes to nothing else. -/
theorem Performs.eq_result {depths : List Nat} (h : Performs L x k depths u) (hp : x.Paced)
    (hk : k.Left n) : u = k.result (x.run (level n) k.state) := by
  induction h generalizing n with
  | step => rfl
  | bind _ _ ihx ihf =>
    obtain ⟨hx, hd⟩ := Counter.result_eq_ok.1 (ihx hp.1 hk).symm
    rw [ihf (hp.2 _) (hk.of_eq hd), Counter.result_congr hd]
    rw [Code.run, bind_of_ok hx]
  | bindError _ ih =>
    obtain ⟨hx, hd⟩ := Counter.result_eq_error.1 (ih hp.1 hk).symm
    rw [Code.run, bind_of_error hx]
    exact (Counter.result_eq_error.2 ⟨rfl, hd⟩).symm
  | @attempt _ x k _ _ _ ih =>
    rw [ih hp hk]
    show _ = Counter.result _ (Parse.attempt (x.run (level n)) _)
    unfold Parse.attempt
    cases x.run (level n) k.state <;> rfl
  | iterate _ ih => rw [hp.run_iterate, ih hp.iterateOnce hk]
  | collect _ ih => rw [hp.run_collect, ih hp.collectOnce hk]
  | limit hle =>
    obtain rfl : n = 0 := by unfold Counter.Left at hk; omega
    rw [Code.run, level_zero_call, Counter.result_fail]
  | @call _ c k _ u hlt _ ih =>
    obtain ⟨n, rfl⟩ := hk.exists_succ hlt
    rw [ih (L.paced c) hk.enter, L.run_code, Upshot.leave_enter_result, Code.run,
      level_succ_call]
    rfl

/-- Tokens are read one after another, however the code ends. -/
theorem Performs.reads {depths : List Nat} (h : Performs L x k depths u) (hp : x.Paced) :
    ∃ v, k.state.Reads v u.counter.state := by
  induction h with
  | @step _ m k =>
    have hm : Forward m := hp
    obtain ⟨v, hv⟩ := hm.reads k.state
    refine ⟨v, ?_⟩
    cases h : m k.state <;> rwa [h] at hv
  | bind _ _ ihx ihf =>
    obtain ⟨v, hv⟩ := ihx hp.1
    obtain ⟨w, hw⟩ := ihf (hp.2 _)
    exact ⟨v ++ w, hv.trans hw⟩
  | bindError _ ih => exact ih hp.1
  | attempt _ ih =>
    rw [Upshot.counter_attempt]
    exact ih hp
  | iterate _ ih => exact ih hp.iterateOnce
  | collect _ ih => exact ih hp.collectOnce
  | limit _ => exact ⟨[], .refl _⟩
  | @call _ c _ _ _ _ _ ih =>
    rw [Upshot.counter_leave]
    exact ih (L.paced c)

/-- Code whose loops read comes to an end, and to what its routine comes to. -/
theorem performs_iff (hp : x.Paced) (hk : k.Left n) :
    (∃ depths, Performs L x k depths u) ↔ u = k.result (x.run (level n) k.state) := by
  refine ⟨fun ⟨_, h⟩ => h.eq_result hp hk, ?_⟩
  rintro rfl
  exact Code.Ends.of_calls (fun c _ hk => .call c hk) x hp hk

end

end Parse

end JsSyntax
