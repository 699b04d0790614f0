import JsSyntax.Proofs.Parse.Steps

/-! # What the results of a routine satisfy

`Gives m P`: whatever the routine `m` returns, in whatever state, satisfies `P`. The rules follow
the text of a routine; what a step returns is either needed for the result (`Gives.bind`) or not
(`Gives.skip`).
-/

set_option autoImplicit false

namespace JsSyntax

namespace Parse

variable {α β : Type}

def Gives (m : ParseM α) (P : α → Prop) : Prop := ∀ ⦃s a s'⦄, m s = .ok a s' → P a

/-- The element that a step of a list has found satisfies `P`. -/
def Item.Holds (P : α → Prop) : Item α → Prop
  | .stop => True
  | .last a | .more a => P a

namespace Gives

variable {m : ParseM α} {f : α → ParseM β} {P P' : α → Prop} {Q : β → Prop}

theorem mono (h : Gives m P) (hP : ∀ a, P a → P' a) : Gives m P' :=
  fun _ _ _ hok => hP _ (h hok)

/-! ## Sequences -/

theorem pure {a : α} (h : P a) : Gives (Pure.pure a) P := by
  intro s a' s' hok
  obtain ⟨rfl, -⟩ := pure_eq_ok.mp hok
  exact h

theorem bind (hm : Gives m P) (hf : ∀ a, P a → Gives (f a) Q) : Gives (m >>= f) Q := by
  intro s b s' hok
  obtain ⟨a, s₁, ha, hb⟩ := bind_eq_ok.mp hok
  exact hf a (hm ha) hb

/-- Nothing has to be known of what the first routine returns. -/
theorem skip (hf : ∀ a, Gives (f a) Q) : Gives (m >>= f) Q := by
  intro s b s' hok
  obtain ⟨a, s₁, -, hb⟩ := bind_eq_ok.mp hok
  exact hf a hb

theorem map {g : α → β} (hm : Gives m P) (hg : ∀ a, P a → Q (g a)) : Gives (g <$> m) Q := by
  intro s b s' hok
  obtain ⟨a, ha, rfl⟩ := map_eq_ok.mp hok
  exact hg a (hm ha)

theorem ite {c : Prop} [Decidable c] {m' : ParseM α} (h : Gives m P) (h' : Gives m' P) :
    Gives (if c then m else m') P := by
  split
  · exact h
  · exact h'

/-- A choice in front of a common rest. -/
theorem iteBind {c : Prop} [Decidable c] {m' : ParseM α} (h : Gives m P) (h' : Gives m' P)
    (hf : ∀ a, P a → Gives (f a) Q) : Gives (if c then m >>= f else m' >>= f) Q :=
  ite (bind h hf) (bind h' hf)

/-- What may be left out satisfies `P` where it is there. -/
theorem some (h : Gives m P) : Gives (Option.some <$> m) fun x => ∀ a ∈ x, P a := by
  refine h.map fun a ha => ?_
  rintro _ ⟨⟩
  exact ha

theorem optional {c : Prop} [Decidable c] {f : Option α → ParseM β} (h : Gives m P)
    (hf : ∀ x, (∀ a ∈ x, P a) → Gives (f x) Q) :
    Gives (if c then Option.some <$> m >>= f else Pure.pure none >>= f) Q :=
  iteBind h.some (pure nofun) hf

theorem iteSkip {c : Prop} [Decidable c] {m' : ParseM α} (hf : ∀ a, Gives (f a) Q) :
    Gives (if c then m >>= f else m' >>= f) Q :=
  ite (skip hf) (skip hf)

theorem fail {fault : Fault} : Gives (Parse.fail fault) P := fun _ _ _ hok => absurd hok fail_ne_ok

theorem unexpected : Gives Parse.unexpected P := fun _ _ _ hok => absurd hok unexpected_ne_ok

/-! ## Loops -/

theorem iterate_go {step : α → ParseM (Option α)}
    (hstep : ∀ a, P a → Gives (step a) fun x => ∀ b ∈ x, P b) (fuel : List Token) {a : α}
    (ha : P a) : Gives (iterate.go step fuel a) P := by
  induction fuel generalizing a with
  | nil => exact pure ha
  | cons t fuel ih =>
    refine bind (hstep a ha) fun x hx => ?_
    cases x with
    | some b => exact ih (hx b rfl)
    | none => exact pure ha

/-- What holds of the first value and goes from one value to the next holds of the last. -/
theorem iterate {step : α → ParseM (Option α)} {a : α} (ha : P a)
    (hstep : ∀ a, P a → Gives (step a) fun x => ∀ b ∈ x, P b) : Gives (Parse.iterate step a) P :=
  skip fun _ => iterate_go hstep _ ha

theorem collect_go {step : ParseM (Item α)} (hstep : Gives step (Item.Holds P))
    (fuel : List Token) : Gives (collect.go step fuel) fun as => ∀ a ∈ as, P a := by
  induction fuel with
  | nil => exact pure nofun
  | cons t fuel ih =>
    refine bind hstep fun x hx => ?_
    cases x with
    | stop => exact pure nofun
    | last a => exact pure (List.forall_mem_singleton.2 hx)
    | more a => exact bind ih fun as has => pure (List.forall_mem_cons.2 ⟨hx, has⟩)

theorem collect {step : ParseM (Item α)} (hstep : Gives step (Item.Holds P)) :
    Gives (Parse.collect step) fun as => ∀ a ∈ as, P a :=
  skip fun _ => collect_go hstep _

theorem commaItem {element : ParseM α} (h : Gives element P) :
    Gives (Parse.commaItem element) (Item.Holds P) := by
  refine bind h fun a ha => skip fun comma => pure ?_
  cases comma
  · exact ha
  · exact ha

theorem upTo {mark : String} {item : ParseM (Item α)} (h : Gives item (Item.Holds P)) :
    Gives (Parse.upTo mark item) (Item.Holds P) :=
  skip fun _ => ite (pure trivial) (skip fun _ => ite (pure trivial) h)

end Gives

end Parse

end JsSyntax
