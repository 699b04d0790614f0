import JsSyntax.Ast.Map
import JsSyntax.Proofs.RoundTrip.Consumes

/-! # Loops that take what is written for them

The steps of a loop are followed one by one (`Iterates`, `Collected`); each reads a token at least,
so the bound of the loop is no bound on them. A loop around an operand is described by where its
steps may have led to (`Climbs`): what has been taken so far need not be all that the loop takes,
as the left operand of an operator is taken by the loop that takes the operator.
-/

set_option autoImplicit false

namespace JsSyntax

namespace Parse

variable {α : Type}

/-! ## Folding -/

/-- The steps lead from one value and state to another. -/
inductive Iterates (step : α → ParseM (Option α)) : α → State → α → State → Prop where
  | refl {a : α} {s : State} : Iterates step a s a s
  | next {a b c : α} {s s' s'' : State} :
      step a s = .ok (some b) s' → s'.rest.length < s.rest.length → Iterates step b s' c s'' →
      Iterates step a s c s''

namespace Iterates

variable {step : α → ParseM (Option α)} {a b c : α} {s s' s'' : State}

theorem snoc (h : Iterates step a s b s') (hstep : step b s' = .ok (some c) s'')
    (hlt : s''.rest.length < s'.rest.length) : Iterates step a s c s'' := by
  induction h with
  | refl => exact .next hstep hlt .refl
  | next hok hlt' _ ih => exact .next hok hlt' (ih hstep hlt)

theorem go (h : Iterates step a s b s') (hnone : step b s' = .ok none s'') :
    ∀ {fuel : List Token}, s.rest.length < fuel.length →
      iterate.go step fuel a s = .ok b s'' := by
  induction h with
  | refl =>
    intro fuel hfuel
    obtain ⟨x, fuel, rfl⟩ := List.exists_cons_of_length_pos (Nat.zero_lt_of_lt hfuel)
    rw [iterate.go, bind_of_ok hnone]
    rfl
  | next hok hlt _ ih =>
    intro fuel hfuel
    obtain ⟨x, fuel, rfl⟩ := List.exists_cons_of_length_pos (Nat.zero_lt_of_lt hfuel)
    rw [iterate.go, bind_of_ok hok]
    exact ih hnone (by simp at hfuel; omega)

theorem iterate (h : Iterates step a s b s') (hnone : step b s' = .ok none s'') :
    Parse.iterate step a s = .ok b s'' :=
  h.go hnone (by simp [State.ahead])

end Iterates

/-! ## Loops around an operand -/

/-- An operand, and steps that extend it. -/
structure Loop where
  operand : ParseM (Expr Span)
  step : Span → Expr Span → ParseM (Option (Expr Span))

def Loop.run (l : Loop) : ParseM (Expr Span) := do
  let start := (← peek).span
  let e ← l.operand
  iterate (l.step start) e

/-- In front of the tokens `u` and a token for which `stops`, some steps of the loop take `u`, and
their value is the expression `e`. -/
def Loop.Climbs (l : Loop) (u : List Token) (stops : Token → Prop) (e : Expr Unit) : Prop :=
  ∀ ⦃s : State⦄ ⦃t : Token⦄ ⦃rest : List Token⦄, s.rest = u ++ t :: rest → stops t →
    ∃ a₀ s₀ a s', l.operand s = .ok a₀ s₀ ∧ Iterates (l.step s.current.span) a₀ s₀ a s' ∧
      s'.rest = t :: rest ∧ a.erase = e

namespace Loop.Climbs

variable {l : Loop} {u v : List Token} {stops stops' : Token → Prop} {e e' : Expr Unit}

theorem of_operand (h : Takes l.operand u stops (·.erase = e)) : l.Climbs u stops e := by
  intro s t rest hs ht
  obtain ⟨a, s', hok, hs', ha⟩ := h hs ht
  exact ⟨a, s', a, s', hok, .refl, hs', ha⟩

/-- One more step. -/
theorem step {x : Token} (h : l.Climbs u stops e) (hx : stops x)
    (hstep : ∀ start a, a.erase = e → Takes (l.step start a) (x :: v) stops'
      (fun y => ∃ b, y = some b ∧ b.erase = e')) : l.Climbs (u ++ x :: v) stops' e' := by
  intro s t rest hs ht
  rw [List.append_assoc] at hs
  obtain ⟨a₀, s₀, a, s₁, hok, hsteps, hs₁, ha⟩ := h hs hx
  obtain ⟨_, s', hstep, hs', b, rfl, hb⟩ := hstep s.current.span a ha hs₁ ht
  refine ⟨a₀, s₀, b, s', hok, hsteps.snoc hstep ?_, hs', hb⟩
  rw [hs₁, hs']
  simp only [List.append_eq, List.length_append, List.length_cons]
  omega

/-- The loop ends at a token that no step starts with. -/
theorem takes (h : l.Climbs u stops e) (hstops : ∀ t, stops' t → stops t)
    (hnone : ∀ start a, Takes (l.step start a) [] stops' (· = none)) :
    Takes l.run u stops' (·.erase = e) := by
  intro s t rest hs ht
  obtain ⟨a₀, s₀, a, s₁, hok, hsteps, hs₁, ha⟩ := h hs (hstops t ht)
  obtain ⟨_, s', hnone, hs', rfl⟩ := hnone s.current.span a hs₁ ht
  refine ⟨a, s', ?_, hs', ha⟩
  rw [Loop.run, peek_bind, bind_of_ok hok]
  exact hsteps.iterate hnone

end Loop.Climbs

/-- The operand is all there is, at a token that no step starts with. -/
theorem Loop.run_consumes {l : Loop} {u rest : List Token} {t : Token} {stops : Token → Prop}
    {P : Expr Span → Prop} (h : Consumes l.operand u (t :: rest) P) (ht : stops t)
    (hnone : ∀ start a, Takes (l.step start a) [] stops (· = none)) :
    Consumes l.run u (t :: rest) P := by
  intro s hs
  obtain ⟨a, s₁, hok, hs₁, ha⟩ := h hs
  obtain ⟨_, s', hstep, hs', rfl⟩ := hnone s.current.span a hs₁ ht
  refine ⟨a, s', ?_, hs', ha⟩
  rw [Loop.run, peek_bind, bind_of_ok hok]
  exact Iterates.refl.iterate hstep

/-! ## Collecting -/

/-- The steps collect a list. -/
inductive Collected (step : ParseM (Item α)) : State → List α → State → Prop where
  | stop {s s' : State} : step s = .ok .stop s' → Collected step s [] s'
  | last {s s' : State} {a : α} : step s = .ok (.last a) s' → Collected step s [a] s'
  | more {s s' s'' : State} {a : α} {as : List α} :
      step s = .ok (.more a) s' → s'.rest.length < s.rest.length → Collected step s' as s'' →
      Collected step s (a :: as) s''

namespace Collected

variable {step : ParseM (Item α)} {s s' : State} {as : List α}

theorem go (h : Collected step s as s') : ∀ {fuel : List Token},
    s.rest.length < fuel.length → collect.go step fuel s = .ok as s' := by
  induction h with
  | stop hok =>
    intro fuel hfuel
    obtain ⟨x, fuel, rfl⟩ := List.exists_cons_of_length_pos (Nat.zero_lt_of_lt hfuel)
    rw [collect.go, bind_of_ok hok]
    rfl
  | last hok =>
    intro fuel hfuel
    obtain ⟨x, fuel, rfl⟩ := List.exists_cons_of_length_pos (Nat.zero_lt_of_lt hfuel)
    rw [collect.go, bind_of_ok hok]
    rfl
  | more hok hlt _ ih =>
    intro fuel hfuel
    obtain ⟨x, fuel, rfl⟩ := List.exists_cons_of_length_pos (Nat.zero_lt_of_lt hfuel)
    rw [collect.go, bind_of_ok hok]
    exact bind_of_ok (ih (by simp at hfuel; omega))

theorem collect (h : Collected step s as s') : Parse.collect step s = .ok as s' :=
  h.go (by simp [State.ahead])

end Collected

/-- In front of the tokens `u` and a token for which `stops`, the steps take `u`, and the list they
collect satisfies `P`. -/
def TakesItems (step : ParseM (Item α)) (u : List Token) (stops : Token → Prop)
    (P : List α → Prop) : Prop :=
  ∀ ⦃s : State⦄ ⦃t : Token⦄ ⦃rest : List Token⦄, s.rest = u ++ t :: rest → stops t →
    ∃ as s', Collected step s as s' ∧ s'.rest = t :: rest ∧ P as

namespace TakesItems

variable {step : ParseM (Item α)} {u v : List Token} {stops stops' : Token → Prop}
  {P Q : List α → Prop}

theorem stop (h : Takes step [] stops fun item => item = .stop ∧ P []) :
    TakesItems step [] stops P := by
  intro s t rest hs ht
  obtain ⟨_, s', hok, hs', rfl, hP⟩ := h hs ht
  exact ⟨[], s', .stop hok, hs', hP⟩

theorem last (h : Takes step u stops fun item => ∃ a, item = .last a ∧ P [a]) :
    TakesItems step u stops P := by
  intro s t rest hs ht
  obtain ⟨_, s', hok, hs', a, rfl, hP⟩ := h hs ht
  exact ⟨[a], s', .last hok, hs', hP⟩

/-- A step that reads a token at least, and then the others. -/
theorem more (hne : u ≠ [])
    (h : Takes step u stops' fun item => ∃ a, item = .more a ∧ ∀ as, Q as → P (a :: as))
    (hstops : ∀ t, stops t → stops' (v.headD t)) (hv : TakesItems step v stops Q) :
    TakesItems step (u ++ v) stops P := by
  intro s t rest hs ht
  obtain ⟨rest', hrest'⟩ := exists_headD_cons v t rest
  rw [List.append_assoc, hrest'] at hs
  obtain ⟨_, s₁, hok, hs₁, a, rfl, hP⟩ := h hs (hstops t ht)
  have hlt : s₁.rest.length < s.rest.length := by
    have hpos := List.length_pos_iff.2 hne
    rw [hs, hs₁, List.length_append]
    omega
  rw [← hrest'] at hs₁
  obtain ⟨as, s', hsteps, hs', has⟩ := hv hs₁ ht
  exact ⟨a :: as, s', .more hok hlt hsteps, hs', hP as has⟩

theorem takes (h : TakesItems step u stops P) : Takes (collect step) u stops P := by
  intro s t rest hs ht
  obtain ⟨as, s', hsteps, hs', hP⟩ := h hs ht
  exact ⟨as, s', hsteps.collect, hs', hP⟩

end TakesItems

/-! ### One element -/

namespace Consumes

variable {u rest : List Token} {P : α → Prop}

theorem commaItem_last {m : ParseM α} {t : Token} (ht : t.isPunctuation "," = false)
    (h : Consumes m u (t :: rest) P) :
    Consumes (commaItem m) u (t :: rest) (fun item => ∃ a, item = .last a ∧ P a) := by
  refine h.bind_nil fun a ha => ?_
  have hlast : Takes (do return if ← acceptMark "," then Item.more a else .last a) [] (· = t)
      (fun item => ∃ a, item = .last a ∧ P a) :=
    .accept_no (by rintro _ rfl; exact ht) (.pure ⟨a, rfl, ha⟩)
  exact hlast.consumes rfl

theorem collect_last {step : ParseM (Item α)}
    (h : Consumes step u rest (fun item => ∃ a, item = .last a ∧ P a)) :
    Consumes (collect step) u rest (fun as => ∃ a, as = [a] ∧ P a) := by
  intro s hs
  obtain ⟨_, s', hok, hs', a, rfl, ha⟩ := h hs
  exact ⟨[a], s', (Collected.last hok).collect, hs', a, rfl, ha⟩

end Consumes

end Parse

end JsSyntax
