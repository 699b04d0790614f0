import JsSyntax.Proofs.Nodes.Induction
import JsSyntax.Proofs.Nodes.Roles

/-! # Patterns as they are written

A pattern is written as an expression, and its properties are written as properties. What stands
below a pattern stands below the expression that it is written as, in the same position
(`Node.sites_pattern_written`).
-/

set_option autoImplicit false

namespace JsSyntax

variable {σ : Type}

/-- The role in what is written. -/
def Role.written : Role → Role
  | .patternShorthand => .shorthand
  | role => role

theorem Role.guarded_written (role : Role) : role.written.guarded = role.guarded := by
  cases role <;> rfl

namespace Node

/-- A pattern is written as an expression; the other nodes are written as themselves. -/
def written : Node σ → Node σ
  | .pattern p => .expr p.toExpr
  | .patternProperty p => .property p.toProperty
  | n => n

theorem sites_slots_written (ps : List (Option (Pattern σ))) :
    (Pattern.slotsToExprs ps).filterMap (Option.map fun e => (Role.element, Node.expr e)) =
      (ps.filterMap (Option.map fun p => (Role.element, Node.pattern p))).map
        (Prod.map Role.written written) := by
  induction ps with
  | nil => rfl
  | cons p ps ih =>
    cases p with
    | none => exact ih
    | some p => exact congrArg ((Role.element, Node.expr p.toExpr) :: ·) ih

theorem sites_properties_written (ps : List (PatternProperty σ)) :
    (PatternProperty.allToProperties ps).map (fun p => (Role.part, Node.property p)) =
      (ps.map fun p => (Role.part, Node.patternProperty p)).map
        (Prod.map Role.written written) := by
  induction ps with
  | nil => rfl
  | cons p ps ih => exact congrArg ((Role.part, Node.property p.toProperty) :: ·) ih

theorem sites_pattern_written (p : Pattern σ) : (Node.expr p.toExpr).sites =
    (Node.pattern p).sites.map (Prod.map Role.written written) := by
  cases p with
  | ident id => rfl
  | member object property computed s => cases property <;> rfl
  | array elements s => exact sites_slots_written elements
  | object properties s => exact sites_properties_written properties

theorem sites_patternProperty_written (p : PatternProperty σ) :
    (Node.property p.toProperty).sites =
      (Node.patternProperty p).sites.map (Prod.map Role.written written) := by
  obtain ⟨key, value, computed, shorthand, s⟩ := p
  cases key <;> cases shorthand <;> rfl

/-- A node is written as itself, or what stands below it is written below what it is written as. -/
theorem mem_sites_written {n c : Node σ} {role : Role} (h : (role, c) ∈ n.sites) :
    n.written = n ∨ (role.written, c.written) ∈ n.written.sites := by
  cases n with
  | pattern p =>
    refine .inr ?_
    show _ ∈ (Node.expr p.toExpr).sites
    rw [sites_pattern_written]
    exact List.mem_map_of_mem h
  | patternProperty p =>
    refine .inr ?_
    show _ ∈ (Node.property p.toProperty).sites
    rw [sites_patternProperty_written]
    exact List.mem_map_of_mem h
  | _ => exact .inl rfl

end Node

end JsSyntax
