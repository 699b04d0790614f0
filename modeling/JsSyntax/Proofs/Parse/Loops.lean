import JsSyntax.Parse.Loop
import JsSyntax.Proofs.Parse.Steps

/-! # What loops read

A loop is bounded by the tokens ahead, and its steps read at least one token each, so the bound
never ends it (`collect_yields`). What every step keeps, a whole iteration keeps (`iterate_keeps`).
-/

set_option autoImplicit false

namespace JsSyntax

open Grammar

namespace Parse

variable {α β : Type}

/-- When `m` succeeds, what it has read and what it returns are related by `P`. -/
def Yields (m : ParseM α) (P : List Token → α → Prop) : Prop :=
  ∀ ⦃s a s'⦄, m s = .ok a s' → ∃ u, s.Reads u s' ∧ P u a

/-! ## Folding -/

theorem iterate_go_keeps {step : α → ParseM (Option α)} {I : α → State → Prop}
    (hstep : ∀ {a x s s'}, I a s → step a s = .ok x s' → I (x.getD a) s') :
    ∀ {fuel : List Token} {a b : α} {s s' : State}, I a s →
      iterate.go step fuel a s = .ok b s' → I b s'
  | [], a, b, s, s', hI, h => by
    obtain ⟨rfl, rfl⟩ := pure_eq_ok.mp h
    exact hI
  | _ :: fuel, a, b, s, s', hI, h => by
    simp only [iterate.go, bind_eq_ok] at h
    obtain ⟨x, s₁, hx, h⟩ := h
    cases x with
    | some c => exact iterate_go_keeps hstep (hstep hI hx) h
    | none =>
      obtain ⟨rfl, rfl⟩ := pure_eq_ok.mp h
      exact hstep hI hx

/-- An invariant of the steps is one of the iteration. -/
theorem iterate_keeps {step : α → ParseM (Option α)} {I : α → State → Prop} {a b : α}
    {s s' : State} (hI : I a s) (h : iterate step a s = .ok b s')
    (hstep : ∀ {a x s s'}, I a s → step a s = .ok x s' → I (x.getD a) s') : I b s' :=
  iterate_go_keeps hstep hI h

/-! ## Collecting -/

section
variable {step : ParseM (Item α)} {P : List Token → List α → Prop}

/-- How a step of a list extends what has been collected behind it. -/
structure Collects (step : ParseM (Item α)) (P : List Token → List α → Prop) : Prop where
  stop : ∀ ⦃s s'⦄, step s = .ok .stop s' → s.Reads [] s' ∧ P [] []
  last : ∀ ⦃s a s'⦄, step s = .ok (.last a) s' → ∃ u, s.Reads u s' ∧ P u [a]
  more : ∀ ⦃s a s'⦄, step s = .ok (.more a) s' →
    ∃ u, s.Reads u s' ∧ u ≠ [] ∧ ∀ v as, P v as → P (u ++ v) (a :: as)

theorem collect_go_yields (hP : Collects step P) : ∀ {fuel : List Token} {as : List α}
    {s s' : State}, s.rest.length < fuel.length → collect.go step fuel s = .ok as s' →
    ∃ u, s.Reads u s' ∧ P u as
  | [], _, _, _, hf, _ => by simp at hf
  | _ :: fuel, as, s, s', hf, h => by
    simp only [collect.go, bind_eq_ok] at h
    obtain ⟨item, s₁, hstep, h⟩ := h
    cases item with
    | stop =>
      rw [pure_eq_ok] at h
      obtain ⟨rfl, rfl⟩ := h
      exact ⟨[], hP.stop hstep⟩
    | last a =>
      rw [pure_eq_ok] at h
      obtain ⟨rfl, rfl⟩ := h
      exact hP.last hstep
    | more a =>
      simp only [bind_eq_ok, pure_eq_ok] at h
      obtain ⟨as', _, hgo, rfl, rfl⟩ := h
      obtain ⟨u, hu, hne, hmore⟩ := hP.more hstep
      have hlt := hu.lt_of_ne_nil hne
      obtain ⟨v, hv, hPv⟩ := collect_go_yields hP (by simp at hf; omega) hgo
      exact ⟨u ++ v, hu.trans hv, hmore v as' hPv⟩

theorem collect_yields (hP : Collects step P) : Yields (collect step) P := by
  intro s as s' h
  exact collect_go_yields hP (by simp [State.ahead]) h

end

/-! ## Elements -/

/-- A list with commas between its elements. -/
theorem commaItem_collects {element : ParseM α} {E : List Token → α → Prop}
    {P : List Token → List α → Prop} (hE : Yields element E)
    (hone : ∀ {u a}, E u a → P u [a])
    (hmore : ∀ {u a t v as}, E u a → Reading.spanned.IsMark t "," → P v as →
      P (u ++ [t] ++ v) (a :: as)) : Collects (commaItem element) P := by
  have key : ∀ {s item s'}, commaItem element s = .ok item s' → ∃ a u s₁, s.Reads u s₁ ∧ E u a ∧
      ((item = .last a ∧ s' = s₁) ∨
        ∃ t, item = .more a ∧ s₁.Reads [t] s' ∧ Reading.spanned.IsMark t ",") := by
    intro s item s' h
    simp only [commaItem, bind_eq_ok, pure_eq_ok] at h
    obtain ⟨a, s₁, helement, b, _, hcomma, h, rfl⟩ := h
    obtain ⟨u, hu, hua⟩ := hE helement
    refine ⟨a, u, s₁, hu, hua, ?_⟩
    cases acceptMark_accepted hcomma with
    | yes hm hr => exact .inr ⟨_, by simpa using h.symm, hr, hm⟩
    | no => exact .inl ⟨by simpa using h.symm, rfl⟩
  refine ⟨?_, ?_, ?_⟩
  · intro s s' h
    obtain ⟨a, u, s₁, -, -, ⟨hi, -⟩ | ⟨t, hi, -⟩⟩ := key h <;> cases hi
  · intro s b s' h
    obtain ⟨a, u, s₁, hu, hua, ⟨hi, rfl⟩ | ⟨t, hi, -⟩⟩ := key h <;> cases hi
    exact ⟨u, hu, hone hua⟩
  · intro s b s' h
    obtain ⟨a, u, s₁, hu, hua, ⟨hi, -⟩ | ⟨t, hi, hr, ht⟩⟩ := key h <;> cases hi
    exact ⟨u ++ [t], hu.trans hr, by simp, fun v as => hmore hua ht⟩

/-- A list that ends in front of a mark, and may be empty. -/
theorem upTo_collects {mark : String} {item : ParseM (Item α)} {P : List Token → List α → Prop}
    (hnil : P [] []) (hP : Collects item P) : Collects (upTo mark item) P := by
  have key : ∀ {s x s'}, upTo mark item s = .ok x s' →
      (x = .stop ∧ s' = s) ∨ item s = .ok x s' := by
    intro s x s' h
    simp only [upTo, isMarkNext_bind] at h
    split at h
    · rw [pure_eq_ok] at h
      exact .inl ⟨h.1.symm, h.2.symm⟩
    · simp only [atEnd_bind] at h
      split at h
      · rw [pure_eq_ok] at h
        exact .inl ⟨h.1.symm, h.2.symm⟩
      · exact .inr h
  refine ⟨?_, ?_, ?_⟩
  · intro s s' h
    obtain ⟨-, rfl⟩ | h := key h
    · exact ⟨.refl s', hnil⟩
    · exact hP.stop h
  · intro s a s' h
    obtain ⟨hx, -⟩ | h := key h
    · cases hx
    · exact hP.last h
  · intro s a s' h
    obtain ⟨hx, -⟩ | h := key h
    · cases hx
    · exact hP.more h

/-- A list of elements one after another. -/
theorem more_collects {element : ParseM α} {P : List Token → List α → Prop}
    (hmore : ∀ ⦃s a s'⦄, element s = .ok a s' →
      ∃ u, s.Reads u s' ∧ u ≠ [] ∧ ∀ v as, P v as → P (u ++ v) (a :: as)) :
    Collects (do return .more (← element)) P := by
  have key : ∀ {s x s'}, (do return Item.more (← element) : ParseM (Item α)) s = .ok x s' →
      ∃ a, x = .more a ∧ element s = .ok a s' := by
    intro s x s' h
    simp only [bind_eq_ok, pure_eq_ok] at h
    obtain ⟨a, _, helement, rfl, rfl⟩ := h
    exact ⟨a, rfl, helement⟩
  refine ⟨?_, ?_, ?_⟩
  · intro s s' h
    obtain ⟨a, hx, -⟩ := key h
    cases hx
  · intro s b s' h
    obtain ⟨a, hx, -⟩ := key h
    cases hx
  · intro s b s' h
    obtain ⟨a, hx, helement⟩ := key h
    cases hx
    exact hmore helement

end Parse

end JsSyntax
