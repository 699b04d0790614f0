import JsSyntax.Ast.Basic

/-! # Assignment targets

The left side of an assignment is read as an expression first. `Expr.toPattern` reads it again as
a pattern, or reports the first part of it that nothing can be assigned to.
-/

set_option autoImplicit false

namespace JsSyntax

/-! ## Expressions as targets -/

mutual

/-- The expression read as a pattern, or the annotation of the first node in it that is none. -/
def Expr.asPattern {σ : Type} : Expr σ → Except σ (Pattern σ)
  | .ident id => .ok (.ident id)
  | .member object property computed s => .ok (.member object property computed s)
  | .array elements s => do
    let elements ← Expr.slotsAsPatterns elements
    .ok (.array elements s)
  | .object properties s => do
    let properties ← Property.allAsPatterns properties
    .ok (.object properties s)
  | .literal value => .error value.span
  | .function value => .error value.span
  | .template _ _ s => .error s
  | .this s => .error s
  | .super s => .error s
  | .unary _ _ s => .error s
  | .binary _ _ _ s => .error s
  | .logical _ _ _ s => .error s
  | .conditional _ _ _ s => .error s
  | .assign _ _ _ s => .error s
  | .update _ _ _ s => .error s
  | .await _ s => .error s
  | .call _ _ s => .error s
  | .new _ _ s => .error s

/-- A hole stays a hole. -/
def Expr.slotAsPattern {σ : Type} : Option (Expr σ) → Except σ (Option (Pattern σ))
  | none => .ok none
  | some e => do
    let p ← e.asPattern
    .ok (some p)

def Expr.slotsAsPatterns {σ : Type} :
    List (Option (Expr σ)) → Except σ (List (Option (Pattern σ)))
  | [] => .ok []
  | slot :: slots => do
    let p ← Expr.slotAsPattern slot
    let ps ← Expr.slotsAsPatterns slots
    .ok (p :: ps)

/-- Accessors and methods are no targets, whatever their value. -/
def Property.asPattern {σ : Type} : Property σ → Except σ (PatternProperty σ)
  | ⟨key, value, kind, computed, shorthand, method, s⟩ =>
    if kind ≠ .init ∨ method then .error s
    else do
      let value ← value.asPattern
      .ok ⟨key, value, computed, shorthand, s⟩

def Property.allAsPatterns {σ : Type} :
    List (Property σ) → Except σ (List (PatternProperty σ))
  | [] => .ok []
  | p :: ps => do
    let p ← p.asPattern
    let ps ← Property.allAsPatterns ps
    .ok (p :: ps)

end

/-- The report of a node that is no assignment target. -/
def invalidTarget (s : Span) : Diagnostic := Fault.invalidAssignmentTarget.report s.start

/-- The expression read as a pattern, or the report of what in it is none. -/
def Expr.toPattern (e : Expr Span) : Except Diagnostic (Pattern Span) :=
  e.asPattern.mapError invalidTarget

/-! ## Targets as expressions -/

mutual

/-- The expression that a pattern is written as. -/
def Pattern.toExpr {σ : Type} : Pattern σ → Expr σ
  | .ident id => .ident id
  | .member object property computed s => .member object property computed s
  | .array elements s => .array (Pattern.slotsToExprs elements) s
  | .object properties s => .object (PatternProperty.allToProperties properties) s

def Pattern.slotToExpr {σ : Type} : Option (Pattern σ) → Option (Expr σ)
  | none => none
  | some p => some p.toExpr

def Pattern.slotsToExprs {σ : Type} : List (Option (Pattern σ)) → List (Option (Expr σ))
  | [] => []
  | slot :: slots => Pattern.slotToExpr slot :: Pattern.slotsToExprs slots

def PatternProperty.toProperty {σ : Type} : PatternProperty σ → Property σ
  | ⟨key, value, computed, shorthand, s⟩ =>
    ⟨key, value.toExpr, .init, computed, shorthand, false, s⟩

def PatternProperty.allToProperties {σ : Type} : List (PatternProperty σ) → List (Property σ)
  | [] => []
  | p :: ps => p.toProperty :: PatternProperty.allToProperties ps

end

/-! ## Update targets -/

/-- Names and member accesses can be counted up and down. -/
def Expr.isUpdateTarget {σ : Type} : Expr σ → Bool
  | .ident _ | .member .. => true
  | _ => false

end JsSyntax
