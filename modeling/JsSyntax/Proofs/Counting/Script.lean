import JsSyntax.Parse.Program

/-! # Routines as scripts

A routine of one level of nesting is given the routines of the next level. What it does with them
is written down by a `Script`: steps that do not nest, and calls of the four nested routines. A
script has no say in how deep the calls are, so it can be carried out with the levels of nesting
handed on (`Script.run`) or with one counter that the calls count up and down (`Executes`).
-/

set_option autoImplicit false

namespace JsSyntax

namespace Parse

/-- The routines by which syntax nests, by what they give. -/
inductive Nested : Type → Type where
  | statement : Nested (Statement Span)
  | assignment : Nested (Expr Span)
  | unary : Nested (Expr Span)
  | construction : Nested (Expr Span)

/-- The routine one level deeper. -/
def Deeper.call (d : Deeper) : {α : Type} → Nested α → ParseM α
  | _, .statement => d.statement
  | _, .assignment => d.assignment
  | _, .unary => d.unary
  | _, .construction => d.construction

/-- The routine, given those one level deeper. -/
def Nested.routine : {α : Type} → Nested α → Deeper → ParseM α
  | _, .statement => Parse.statement
  | _, .assignment => Parse.assignment
  | _, .unary => Parse.unary
  | _, .construction => Parse.construction

/-- Steps and calls, one after another; what follows may depend on what a part has given. -/
inductive Script : Type → Type 1 where
  | step {α : Type} (m : ParseM α) : Script α
  | call {α : Type} (c : Nested α) : Script α
  | bind {α β : Type} (x : Script α) (f : α → Script β) : Script β

/-- The routine that the script is of. -/
def Script.run (d : Deeper) : {α : Type} → Script α → ParseM α
  | _, .step m => m
  | _, .call c => d.call c
  | _, .bind x f => x.run d >>= fun a => (f a).run d

/-- Scripts of the four nested routines, one of each. -/
structure Presentation where
  script : {α : Type} → Nested α → Script α
  run_script : ∀ {α : Type} (c : Nested α) (d : Deeper), (script c).run d = c.routine d

/-! ## Counting -/

/-- A parser at work: its state, and how many of the nested routines it is in. -/
structure Counter where
  state : State
  depth : Nat

/-- The result of what leaves the depth as it is. -/
def Counter.result {α : Type} (k : Counter) :
    EStateM.Result Diagnostic State α → EStateM.Result Diagnostic Counter α
  | .ok a s => .ok a { k with state := s }
  | .error e s => .error e { k with state := s }

def Counter.enter (k : Counter) : Counter := { k with depth := k.depth + 1 }

def Counter.leave (k : Counter) : Counter := { k with depth := k.depth - 1 }

/-- The report of a routine that would nest too deeply. -/
def Counter.tooDeep (k : Counter) : Diagnostic :=
  Fault.nestingTooDeep.report k.state.current.span.start

/-- What the script comes to from `k` on, with the depth counted: a nested routine counts it up
when it is called and down when it ends, however it ends, and does nothing at the limit. -/
inductive Executes (P : Presentation) :
    {α : Type} → Script α → Counter → EStateM.Result Diagnostic Counter α → Prop where
  | step {α : Type} {m : ParseM α} {k : Counter} :
      Executes P (.step m) k (k.result (m k.state))
  | bind {α β : Type} {x : Script α} {f : α → Script β} {k k' : Counter} {a : α}
      {r : EStateM.Result Diagnostic Counter β} :
      Executes P x k (.ok a k') → Executes P (f a) k' r → Executes P (.bind x f) k r
  | bindError {α β : Type} {x : Script α} {f : α → Script β} {k k' : Counter} {e : Diagnostic} :
      Executes P x k (.error e k') → Executes P (.bind x f) k (.error e k')
  | limit {α : Type} {c : Nested α} {k : Counter} :
      nestingLimit ≤ k.depth → Executes P (.call c) k (.error k.tooDeep k)
  | call {α : Type} {c : Nested α} {k k' : Counter} {a : α} :
      k.depth < nestingLimit → Executes P (P.script c) k.enter (.ok a k') →
      Executes P (.call c) k (.ok a k'.leave)
  | callError {α : Type} {c : Nested α} {k k' : Counter} {e : Diagnostic} :
      k.depth < nestingLimit → Executes P (P.script c) k.enter (.error e k') →
      Executes P (.call c) k (.error e k'.leave)

end Parse

end JsSyntax
