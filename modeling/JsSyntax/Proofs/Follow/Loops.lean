import JsSyntax.Proofs.Follow.Steps

/-! # Loops that follow each other

The bounds of the two loops differ, since there are more tokens ahead on one side than on the
other. Both loops are over before their bounds are reached: every step that goes on has read a
token on the left, and then it has read one on the right. A folding loop may be cut short: the steps
it has made up to the end of the common stretch (`Steps`) are all that it makes on the right, if a
semicolon stops it there.
-/

set_option autoImplicit false

namespace JsSyntax

namespace Parse

/-! ## The steps of a loop -/

/-- Some steps, each of which reads a token at least, lead from the value `a₀` in the state `s₀` to
another value and state. -/
inductive Steps {α : Type} (step : α → ParseM (Option α)) (a₀ : α) (s₀ : State) :
    α → State → Prop where
  | refl : Steps step a₀ s₀ a₀ s₀
  | more {a b : α} {s s' : State} : Steps step a₀ s₀ a s → step a s = .ok (some b) s' →
      s'.rest.length < s.rest.length → Steps step a₀ s₀ b s'

section
variable {α : Type} {step : α → ParseM (Option α)} {a₀ : α} {s₀ : State}

section
variable {a : α} {s : State}

theorem Steps.le (h : Steps step a₀ s₀ a s) : s.rest.length ≤ s₀.rest.length := by
  induction h with
  | refl => exact Nat.le_refl _
  | more _ _ hlt ih => exact Nat.le_trans (Nat.le_of_lt hlt) ih

/-- The bound of a loop has not been reached behind the steps. -/
theorem Steps.go_eq (h : Steps step a₀ s₀ a s) : ∃ fuel, s.rest.length < fuel.length ∧
    iterate step a₀ s₀ = iterate.go step fuel a s := by
  induction h with
  | refl => exact ⟨s₀.ahead, by simp [State.ahead], rfl⟩
  | @more a b s s' _ hx hlt ih =>
    obtain ⟨fuel, hf, heq⟩ := ih
    cases fuel with
    | nil => simp at hf
    | cons t fuel =>
      rw [List.length_cons] at hf
      exact ⟨fuel, by omega, heq.trans (bind_of_ok hx)⟩

/-- A loop ends where a step gives nothing. -/
theorem Steps.iterate_eq_ok {s' : State} (h : Steps step a₀ s₀ a s)
    (hstop : step a s = .ok none s') : iterate step a₀ s₀ = .ok a s' := by
  obtain ⟨fuel, hf, heq⟩ := h.go_eq
  cases fuel with
  | nil => simp at hf
  | cons t fuel => exact heq.trans (bind_eq_ok.mpr ⟨none, s', hstop, rfl⟩)

/-- A loop fails where a step fails. -/
theorem Steps.iterate_eq_error {e : Diagnostic} {s' : State} (h : Steps step a₀ s₀ a s)
    (hstop : step a s = .error e s') : iterate step a₀ s₀ = .error e s' := by
  obtain ⟨fuel, hf, heq⟩ := h.go_eq
  cases fuel with
  | nil => simp at hf
  | cons t fuel => exact heq.trans (bind_of_error hstop)

end

section
variable (hlt : ∀ {a b s s'}, step a s = .ok (some b) s' → s'.rest.length < s.rest.length)
include hlt

theorem Steps.exists_stop {a : α} {s : State} (h : Steps step a₀ s₀ a s) :
    ∃ b s₁, Steps step a₀ s₀ b s₁ ∧ ∀ c s₂, step b s₁ ≠ .ok (some c) s₂ := by
  by_cases hgo : ∃ b s₁, step a s = .ok (some b) s₁
  · obtain ⟨b, s₁, hx⟩ := hgo
    have := hlt hx
    exact (h.more hx this).exists_stop
  · simp only [not_exists] at hgo
    exact ⟨a, s, h, hgo⟩
termination_by s.rest.length

/-- A loop makes steps to where a step gives nothing or fails. -/
theorem exists_steps (a₀ : α) (s₀ : State) : ∃ b s₁, Steps step a₀ s₀ b s₁ ∧
    ((∃ s₂, step b s₁ = .ok none s₂) ∨ ∃ e s₂, step b s₁ = .error e s₂) := by
  obtain ⟨b, s₁, hsteps, hstop⟩ := Steps.exists_stop hlt (Steps.refl : Steps step a₀ s₀ a₀ s₀)
  refine ⟨b, s₁, hsteps, ?_⟩
  cases hx : step b s₁ with
  | error e s₂ => exact .inr ⟨e, s₂, rfl⟩
  | ok x s₂ =>
    cases x with
    | none => exact .inl ⟨s₂, rfl⟩
    | some c => exact absurd hx (hstop c s₂)

end

end

namespace Alignment

variable {τ α β : Type} {A : Alignment τ}

/-- As many tokens are read on the right as on the left. -/
theorem Along.rest_lt {s s' s₁ s₁' : State} (h : A.Along s s') (h₁ : A.Along s₁ s₁')
    (hlt : s₁.rest.length < s.rest.length) : s₁'.rest.length < s'.rest.length := by
  have := h.aligned.length
  have := h₁.aligned.length
  omega

/-! ## Folding -/

section
variable {r : Reach} {V : α → α → Prop} {step step' : α → ParseM (Option α)}
  (hlt : ∀ {a b s s₁}, step a s = .ok (some b) s₁ → s₁.rest.length < s.rest.length)
  (hstep : ∀ {a a'}, V a a' →
    A.Follows .inside r A.Last (Option.Rel V) (step a) (step' a'))
include hstep

/-- The steps up to the end of the common stretch are steps on the right. -/
theorem steps_follow {a₀ a₀' a : α} {s₀ s₀' s : State} (h : Steps step a₀ s₀ a s)
    (hs₀ : A.Along s₀ s₀') (hl₀ : A.Last s₀ s₀') (ha₀ : V a₀ a₀') (hr : A.At r s) :
    ∃ a' s', Steps step' a₀' s₀' a' s' ∧ V a a' ∧ A.Along s s' ∧ A.Last s s' := by
  induction h with
  | refl => exact ⟨a₀', s₀', .refl, ha₀, hs₀, hl₀⟩
  | @more a b s s₁ _ hx hlt ih =>
    have hin := hr.inside_of_lt hlt
    obtain ⟨a', s', hsteps, ha, hs, hl⟩ := ih (hin.to r)
    have hstep := hstep ha hs hin hl
    rw [hx] at hstep
    obtain ⟨x', s₁', hx', hrel, hs₁, hl₁⟩ := hstep hr
    cases hrel with
    | @some _ b' hb => exact ⟨b', s₁', hsteps.more hx' (hs.rest_lt hs₁ hlt), hb, hs₁, hl₁⟩

include hlt

theorem iterate_follows [A.Ends r] [hm : ∀ a, Moves (step a)]
    (hnone : ∀ {a s s₁}, step a s = .ok none s₁ → s₁ = s)
    (hstop : ∀ {a s}, s.current.isPunctuation ";" → step' a s = .ok none s) {a a' : α}
    (ha : V a a') : A.Follows r r A.Last V (iterate step a) (iterate step' a') := by
  intro s s' hs h₀ hl
  obtain ⟨b, s₁, hsteps, ⟨s₂, hend⟩ | ⟨e, s₂, hend⟩⟩ := exists_steps hlt a s
  · obtain rfl := hnone hend
    rw [hsteps.iterate_eq_ok hend]
    intro hr
    obtain ⟨b', s₁', hsteps', hb, hs₁, hl₁⟩ := steps_follow hstep hsteps hs hl ha hr
    by_cases hin : A.At .inside s₂
    · have hstep := hstep hb hs₁ hin hl₁
      rw [hend] at hstep
      obtain ⟨_, s₂', hend', ⟨⟩, hs₂, hl₂⟩ := hstep hr
      exact ⟨b', s₂', hsteps'.iterate_eq_ok hend', hb, hs₂, hl₂⟩
    · cases r with
      | inside => exact absurd hr hin
      | whole =>
        exact ⟨b', s₁', hsteps'.iterate_eq_ok (hstop (hs₁.semicolon hin)), hb, hs₁, hl₁⟩
  · rw [hsteps.iterate_eq_error hend]
    intro hr he
    have hin : A.At .inside s₁ := hr.of_le (Shrinks.le_of_error hend)
    obtain ⟨b', s₁', hsteps', hb, hs₁, hl₁⟩ := steps_follow hstep hsteps hs hl ha (hin.to r)
    have hstep := hstep hb hs₁ hin hl₁
    rw [hend] at hstep
    obtain ⟨e', s₂', hend', h⟩ := hstep hr he
    exact ⟨e', s₂', hsteps'.iterate_eq_error hend', h⟩

end

/-! ## Collecting -/

/-- The same kind of item, with related elements. -/
inductive Items (V : α → α → Prop) : Item α → Item α → Prop where
  | stop : Items V .stop .stop
  | last {a a' : α} : V a a' → Items V (.last a) (.last a')
  | more {a a' : α} : V a a' → Items V (.more a) (.more a')

section
variable {γ : Type} {f f' : α → γ} {step step' : ParseM (Item α)} [Moves step]
  (hlt : ∀ {a s s₁}, step s = .ok (.more a) s₁ → s₁.rest.length < s.rest.length)
  (hstep : A.Follows .inside .inside A.Last (Items fun a a' => f a = f' a') step step')
include hlt hstep

theorem collect_go_follows : ∀ {fuel fuel' : List Token} {s s' : State},
    A.Along s s' → A.At .inside s → A.Last s s' → s.rest.length < fuel.length →
    s'.rest.length < fuel'.length →
    A.Agree .inside (fun as as' => as.map f = as'.map f') (collect.go step fuel s)
      (collect.go step' fuel' s')
  | [], _, _, _, _, _, _, hf, _ => by simp at hf
  | _ :: _, [], _, _, _, _, _, _, hf' => by simp at hf'
  | _ :: fuel, _ :: fuel', s, s', hs, h₀, hl, hf, hf' => by
    have hstep' := hstep hs h₀ hl
    show A.Agree .inside _ (EStateM.bind step _ s) (EStateM.bind step' _ s')
    unfold EStateM.bind
    cases hx : step s with
    | error e s₁ =>
      rw [hx] at hstep'
      intro h₁ he
      obtain ⟨e', s₁', hx', h⟩ := hstep' h₁ he
      exact ⟨e', s₁', by rw [hx'], h⟩
    | ok x s₁ =>
      rw [hx] at hstep'
      cases x with
      | stop =>
        intro h₁
        obtain ⟨x', s₁', hx', hrel, hs₁, hl₁⟩ := hstep' h₁
        cases hrel
        exact ⟨[], s₁', by rw [hx']; rfl, rfl, hs₁, hl₁⟩
      | last a =>
        intro h₁
        obtain ⟨x', s₁', hx', hrel, hs₁, hl₁⟩ := hstep' h₁
        cases hrel with
        | @last _ a' ha => exact ⟨[a'], s₁', by rw [hx']; rfl, by simp [ha], hs₁, hl₁⟩
      | more a =>
        have hgo : Moves (collect.go step fuel) := Moves.collect_go fuel
        show A.Agree .inside _ ((do return a :: (← collect.go step fuel)) s₁) _
        refine .of_inside fun h₁ => ?_
        obtain ⟨x', s₁', hx', hrel, hs₁, hl₁⟩ := hstep' h₁
        cases hrel with
        | @more _ a' ha =>
          rw [hx']
          have hlt := hlt hx
          have hlt' := hs.rest_lt hs₁ hlt
          simp only [List.length_cons] at hf hf'
          have ih : A.Follows .inside .inside (fun x x' => x = s₁ ∧ x' = s₁')
              (fun as as' => as.map f = as'.map f') (collect.go step fuel)
              (collect.go step' fuel') := by
            rintro _ _ _ _ ⟨rfl, rfl⟩
            exact collect_go_follows hs₁ h₁ hl₁ (by omega) (by omega)
          have hcons : ∀ {as as' : List α}, as.map f = as'.map f' →
              A.Follows .inside .inside A.Last (fun as as' => as.map f = as'.map f')
                (Pure.pure (a :: as)) (Pure.pure (a' :: as')) := by
            intro as as' has
            exact .pure (by simp [ha, has])
          exact ih.bind hcons hs₁ h₁ ⟨rfl, rfl⟩

theorem collect_follows :
    A.Follows .inside .inside A.Last (fun as as' => as.map f = as'.map f') (collect step)
      (collect step') := by
  intro s s' hs h₀ hl
  exact collect_go_follows hlt hstep hs h₀ hl (by simp [State.ahead]) (by simp [State.ahead])

end

/-! ## Elements -/

section
variable {pre : State → State → Prop} {V : α → α → Prop} {element element' : ParseM α}
  {item item' : ParseM (Item α)}

theorem commaItem_follows (h : A.Follows .inside .inside pre V element element') :
    A.Follows .inside .inside pre (Items V) (commaItem element) (commaItem element') := by
  refine h.bind fun ha => ?_
  exact (acceptMark_accepts ",").bind_bool (.pure (.more ha)) (.pure (.last ha))

theorem upTo_follows {mark : String}
    (h : A.Follows .inside .inside A.Last (Items V) item item') :
    A.Follows .inside .inside A.Last (Items V) (upTo mark item) (upTo mark item') := by
  refine (isMarkNext_looks mark).bind fun _ => .ite .rfl (fun _ => .pure .stop) fun _ => ?_
  exact atEnd_looks.bind fun _ => .ite .rfl (fun _ => .pure .stop) fun _ => h

end

end Alignment

/-! ## Elements that are not the last -/

section
variable {τ α : Type} {s s' : State} {a : α}

/-- The comma behind an element has been read. -/
theorem commaItem_lt {element : ParseM α} [Moves element]
    (h : commaItem element s = .ok (.more a) s') : s'.rest.length < s.rest.length := by
  simp only [commaItem, bind_eq_ok, pure_eq_ok] at h
  obtain ⟨b, s₁, helement, c, _, hcomma, hc, rfl⟩ := h
  have := Shrinks.le_of_ok helement
  cases acceptMark_accepted hcomma with
  | yes _ hr =>
    have := hr.lt_of_ne_nil (by simp)
    omega
  | no => simp at hc

theorem upTo_lt {mark : String} {item : ParseM (Item α)}
    (hlt : item s = .ok (.more a) s' → s'.rest.length < s.rest.length)
    (h : upTo mark item s = .ok (.more a) s') : s'.rest.length < s.rest.length := by
  simp only [upTo, isMarkNext_bind] at h
  split at h
  · cases h
  simp only [atEnd_bind] at h
  split at h
  · cases h
  · exact hlt h

end

end Parse

end JsSyntax
