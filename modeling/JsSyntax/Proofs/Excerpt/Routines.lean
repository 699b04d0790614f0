import JsSyntax.Proofs.Excerpt.Nodes

/-! # What functions, classes and statements gather

The class `Gathers` with `Node.All Q` for every routine that builds no expression itself: what it
gives holds expressions with the property `Q` only, when the routines one level deeper do so. What a
class extends is read, but does not count.
-/

set_option autoImplicit false
-- The whole text of a routine goes through the search for an instance.
set_option synthInstance.maxSize 1024

namespace JsSyntax

namespace Parse

/-- The routines one level deeper gather expressions with the property `Q`. What a `new` consists of
is known before it is known where it stands. -/
class Deeper.Finding (S : State) (Q : Expr Span → Prop) (d : Deeper) : Prop where
  statement : ∀ K, Gathers S (Node.All Q) K parts d.statement
  assignment : ∀ K, Gathers S (Node.All Q) K parts d.assignment
  unary : ∀ K, Gathers S (Node.All Q) K parts d.unary
  construction : ∀ K, Gathers S (Node.All Q) K Expr.children d.construction

attribute [instance] Deeper.Finding.statement Deeper.Finding.assignment Deeper.Finding.unary
  Deeper.Finding.construction

namespace Finding

variable {S : State} {Q : Expr Span → Prop} {K : List (Node Span)}

section
variable {d : Deeper} [d.Regular] [d.Finding S Q]

/-! ## Functions and keys -/

instance block : Gathers S (Node.All Q) K parts (Parse.block d) := by
  unfold Parse.block
  infer_instance

instance methodFunction {async generator : Bool} :
    Gathers S (Node.All Q) K parts (Parse.methodFunction d async generator) := by
  unfold Parse.methodFunction
  infer_instance

instance function : Gathers S (Node.All Q) K parts (Parse.function d) := by
  unfold Parse.function
  dsimp only
  infer_instance

instance propertyKey : Gathers S (Node.All Q) K parts (Parse.propertyKey d) := by
  unfold Parse.propertyKey
  infer_instance

/-! ## Classes -/

instance methodDefinition : Gathers S (Node.All Q) K parts (Parse.methodDefinition d) := by
  unfold Parse.methodDefinition
  dsimp only
  infer_instance

instance classBody : Gathers S (Node.All Q) K parts (Parse.classBody d) := by
  unfold Parse.classBody
  infer_instance

/-- What the first routine gives does not count. -/
theorem skip {α β : Type} {g : β → List (Node Span)} {m : ParseM α} {k : α → ParseM β} [Moves m]
    (hk : ∀ a, Gathers S (Node.All Q) K g (k a)) : Gathers S (Node.All Q) K g (m >>= k) := by
  refine ⟨fun hs hK h => ?_⟩
  obtain ⟨a, s₁, hok, hok'⟩ := bind_eq_ok.mp h
  obtain ⟨u, hu⟩ := Moves.ok hok
  exact (hk a).gathers (hs.trans hu) hK hok'

instance classDeclaration : Gathers S (Node.All Q) K parts (Parse.classDeclaration d) := by
  unfold Parse.classDeclaration
  dsimp only
  refine skip fun start => skip fun _ => skip fun id => skip fun extended => ?_
  simp only [ite_bind]
  refine skip fun superClass => ?_
  infer_instance

/-! ## Statements -/

instance variableDeclarator : Gathers S (Node.All Q) K parts (Parse.variableDeclarator d) := by
  unfold Parse.variableDeclarator
  dsimp only
  infer_instance

instance variableList {kind : VariableKind} {start : Span} :
    Gathers S (Node.All Q) K parts (Parse.variableList d kind start) := by
  unfold Parse.variableList
  infer_instance

instance variableDeclaration {kind : VariableKind} {start : Span} :
    Gathers S (Node.All Q) K parts (Parse.variableDeclaration d kind start) := by
  unfold Parse.variableDeclaration
  infer_instance

instance ifStatement : Gathers S (Node.All Q) K parts (Parse.ifStatement d) := by
  unfold Parse.ifStatement
  dsimp only
  infer_instance

instance forInit : Gathers S (Node.All Q) K parts (Parse.forInit d) := by
  unfold Parse.forInit
  infer_instance

instance optionalBefore {mark : String} :
    Gathers S (Node.All Q) K parts (Parse.optionalBefore d mark) := by
  unfold Parse.optionalBefore
  infer_instance

instance forStatement : Gathers S (Node.All Q) K parts (Parse.forStatement d) := by
  unfold Parse.forStatement
  infer_instance

instance whileStatement : Gathers S (Node.All Q) K parts (Parse.whileStatement d) := by
  unfold Parse.whileStatement
  infer_instance

instance returnStatement : Gathers S (Node.All Q) K parts (Parse.returnStatement d) := by
  unfold Parse.returnStatement
  infer_instance

instance expressionStatement : Gathers S (Node.All Q) K parts (Parse.expressionStatement d) := by
  unfold Parse.expressionStatement
  infer_instance

instance keywordStatement : Gathers S (Node.All Q) K parts (Parse.keywordStatement d) := by
  unfold Parse.keywordStatement
  infer_instance

instance statement : Gathers S (Node.All Q) K parts (Parse.statement d) := by
  unfold Parse.statement
  infer_instance

end

end Finding

end Parse

end JsSyntax
