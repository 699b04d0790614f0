import JsSyntax.Ast.Target

/-! # Expressions read as patterns

An expression that can be read as a pattern is the expression the pattern is written as
(`Expr.eq_toExpr_of_asPattern`).
-/

set_option autoImplicit false

namespace JsSyntax

theorem except_bind_eq_ok {ε α β : Type} {x : Except ε α} {f : α → Except ε β} {b : β} :
    (x >>= f) = .ok b ↔ ∃ a, x = .ok a ∧ f a = .ok b := by
  cases x with
  | ok a => exact ⟨fun h => ⟨a, rfl, h⟩, by rintro ⟨_, ⟨⟩, h⟩; exact h⟩
  | error e => exact ⟨fun h => (by cases h), by rintro ⟨_, ⟨⟩, _⟩⟩

variable {σ : Type}

mutual

theorem Expr.eq_toExpr_of_asPattern :
    (e : Expr σ) → (p : Pattern σ) → e.asPattern = .ok p → e = p.toExpr
  | .ident id, p, h => by
    simp only [Expr.asPattern, Except.ok.injEq] at h
    subst h
    rfl
  | .member .., p, h => by
    simp only [Expr.asPattern, Except.ok.injEq] at h
    subst h
    rfl
  | .array elements s, p, h => by
    simp only [Expr.asPattern, except_bind_eq_ok, Except.ok.injEq] at h
    obtain ⟨ps, hps, rfl⟩ := h
    rw [Pattern.toExpr, ← Expr.eq_slotsToExprs_of_slotsAsPatterns elements ps hps]
  | .object properties s, p, h => by
    simp only [Expr.asPattern, except_bind_eq_ok, Except.ok.injEq] at h
    obtain ⟨ps, hps, rfl⟩ := h
    rw [Pattern.toExpr, ← Property.eq_allToProperties_of_allAsPatterns properties ps hps]
  | .literal _, _, h | .function _, _, h | .template .., _, h | .this _, _, h | .super _, _, h
  | .unary .., _, h | .binary .., _, h | .logical .., _, h | .conditional .., _, h
  | .assign .., _, h | .update .., _, h | .await .., _, h | .call .., _, h | .new .., _, h => by
    simp [Expr.asPattern] at h

theorem Expr.eq_slotsToExprs_of_slotsAsPatterns : (slots : List (Option (Expr σ))) →
    (ps : List (Option (Pattern σ))) → Expr.slotsAsPatterns slots = .ok ps →
    slots = Pattern.slotsToExprs ps
  | [], ps, h => by
    simp only [Expr.slotsAsPatterns, Except.ok.injEq] at h
    subst h
    rfl
  | none :: slots, ps, h => by
    simp only [Expr.slotsAsPatterns, Expr.slotAsPattern, except_bind_eq_ok, Except.ok.injEq] at h
    obtain ⟨_, rfl, qs, hqs, rfl⟩ := h
    rw [Expr.eq_slotsToExprs_of_slotsAsPatterns slots qs hqs]
    rfl
  | some e :: slots, ps, h => by
    simp only [Expr.slotsAsPatterns, Expr.slotAsPattern, except_bind_eq_ok, Except.ok.injEq] at h
    obtain ⟨_, ⟨p, hp, rfl⟩, qs, hqs, rfl⟩ := h
    rw [Expr.eq_slotsToExprs_of_slotsAsPatterns slots qs hqs, Expr.eq_toExpr_of_asPattern e p hp]
    rfl

theorem Property.eq_allToProperties_of_allAsPatterns : (ps : List (Property σ)) →
    (qs : List (PatternProperty σ)) → Property.allAsPatterns ps = .ok qs →
    ps = PatternProperty.allToProperties qs
  | [], qs, h => by
    simp only [Property.allAsPatterns, Except.ok.injEq] at h
    subst h
    rfl
  | ⟨key, value, kind, computed, shorthand, method, s⟩ :: ps, qs, h => by
    simp only [Property.allAsPatterns, except_bind_eq_ok, Except.ok.injEq] at h
    obtain ⟨q, hq, rs, hrs, rfl⟩ := h
    simp only [Property.asPattern] at hq
    split at hq
    · cases hq
    · rename_i hinit
      simp only [except_bind_eq_ok, Except.ok.injEq] at hq
      obtain ⟨p, hp, rfl⟩ := hq
      obtain ⟨rfl, rfl⟩ : kind = .init ∧ method = false := by simpa using hinit
      rw [Property.eq_allToProperties_of_allAsPatterns ps rs hrs,
        Expr.eq_toExpr_of_asPattern value p hp]
      rfl

end

end JsSyntax
