import Mathlib.Tactic.Choose
import JsSyntax.Proofs.Counting.Script

/-! # Every routine has a script

`Scripted f`: the routine `f` is the run of a script. The property is a class, so that the script is
put together from the text of a routine. The four nested routines have scripts
(`nonempty_presentation`).
-/

set_option autoImplicit false
-- The whole text of a routine goes through the search for an instance.
set_option synthInstance.maxSize 1024

namespace JsSyntax

namespace Parse

variable {α β : Type}

class Scripted (f : Deeper → ParseM α) : Prop where
  exists_script : ∃ x : Script α, ∀ d, x.run d = f d

namespace Scripted

/-! ## Sequences -/

/-- What does not nest is one step. -/
instance (priority := high) step (m : ParseM α) : Scripted fun _ => m := ⟨.step m, fun _ => rfl⟩

theorem call (c : Nested α) : Scripted fun d => d.call c := ⟨.call c, fun _ => rfl⟩

instance nestedStatement : Scripted fun d => d.statement := call .statement

instance nestedAssignment : Scripted fun d => d.assignment := call .assignment

instance nestedUnary : Scripted fun d => d.unary := call .unary

instance nestedConstruction : Scripted fun d => d.construction := call .construction

theorem andThen {f : Deeper → ParseM α} {g : Deeper → α → ParseM β} [hf : Scripted f]
    (hg : ∀ a, Scripted fun d => g d a) : Scripted fun d => f d >>= g d := by
  obtain ⟨x, hx⟩ := hf.exists_script
  obtain ⟨y, hy⟩ := Classical.axiomOfChoice fun a => (hg a).exists_script
  refine ⟨.bind x y, fun d => ?_⟩
  rw [Script.run, hx]
  congr 1
  funext a
  exact hy a d

instance bind {f : Deeper → ParseM α} {g : Deeper → α → ParseM β} [Scripted f]
    [hg : ∀ a, Scripted fun d => g d a] : Scripted fun d => f d >>= g d := andThen hg

/-- A choice is followed by one routine for each case. -/
instance (priority := low) bindOption {f : Deeper → ParseM (Option α)}
    {g : Deeper → Option α → ParseM β} [Scripted f] [hn : Scripted fun d => g d none]
    [hs : ∀ a, Scripted fun d => g d (some a)] : Scripted fun d => f d >>= g d :=
  andThen (Option.forall.2 ⟨hn, hs⟩)

instance map {f : Deeper → ParseM α} {h : α → β} [Scripted f] : Scripted fun d => h <$> f d :=
  inferInstanceAs (Scripted fun d => f d >>= fun a => Pure.pure (h a))

instance ite {c : Prop} [Decidable c] {f g : Deeper → ParseM α} [hf : Scripted f]
    [hg : Scripted g] : Scripted fun d => if c then f d else g d := by
  split
  · exact hf
  · exact hg

/-! ## Loops -/

theorem iterate_go {step : Deeper → α → ParseM (Option α)}
    [hstep : ∀ a, Scripted fun d => step d a] (fuel : List Token) (a : α) :
    Scripted fun d => iterate.go (step d) fuel a := by
  induction fuel generalizing a with
  | nil => exact Scripted.step _
  | cons t fuel ih =>
    refine andThen fun x => ?_
    cases x with
    | none => exact Scripted.step _
    | some b => exact ih b

instance iterate {step : Deeper → α → ParseM (Option α)} [∀ a, Scripted fun d => step d a]
    (a : α) : Scripted fun d => Parse.iterate (step d) a :=
  andThen fun s => iterate_go s.ahead a

theorem collect_go {step : Deeper → ParseM (Item α)} [hstep : Scripted step]
    (fuel : List Token) : Scripted fun d => collect.go (step d) fuel := by
  induction fuel with
  | nil => exact Scripted.step _
  | cons t fuel ih =>
    refine andThen fun x => ?_
    cases x <;> infer_instance

instance collect {step : Deeper → ParseM (Item α)} [Scripted step] :
    Scripted fun d => Parse.collect (step d) :=
  andThen fun s => collect_go s.ahead

instance commaItem {element : Deeper → ParseM α} [Scripted element] :
    Scripted fun d => Parse.commaItem (element d) := by
  unfold Parse.commaItem
  infer_instance

instance upTo {mark : String} {item : Deeper → ParseM (Item α)} [Scripted item] :
    Scripted fun d => Parse.upTo mark (item d) := by
  unfold Parse.upTo
  infer_instance

/-! ## Functions and members -/

instance block : Scripted fun d => Parse.block d := by
  unfold Parse.block
  infer_instance

instance methodFunction (async generator : Bool) :
    Scripted fun d => Parse.methodFunction d async generator := by
  unfold Parse.methodFunction
  infer_instance

instance function : Scripted fun d => Parse.function d := by
  unfold Parse.function
  dsimp only
  infer_instance

instance propertyKey : Scripted fun d => Parse.propertyKey d := by
  unfold Parse.propertyKey
  infer_instance

instance property : Scripted fun d => Parse.property d := by
  unfold Parse.property
  dsimp only
  infer_instance

instance methodDefinition : Scripted fun d => Parse.methodDefinition d := by
  unfold Parse.methodDefinition
  dsimp only
  infer_instance

/-! ## Expressions -/

instance arrayLiteral : Scripted fun d => Parse.arrayLiteral d := by
  unfold Parse.arrayLiteral
  infer_instance

instance objectLiteral : Scripted fun d => Parse.objectLiteral d := by
  unfold Parse.objectLiteral
  infer_instance

instance group : Scripted fun d => Parse.group d := by
  unfold Parse.group
  infer_instance

instance keywordPrimary : Scripted fun d => Parse.keywordPrimary d := by
  unfold Parse.keywordPrimary
  infer_instance

instance markPrimary : Scripted fun d => Parse.markPrimary d := by
  unfold Parse.markPrimary
  infer_instance

instance primary : Scripted fun d => Parse.primary d := by
  unfold Parse.primary
  refine andThen fun t => ?_
  cases t.kind with
  | keyword => exact keywordPrimary
  | punctuation => exact markPrimary
  | _ => exact step _

instance arguments : Scripted fun d => Parse.arguments d := by
  unfold Parse.arguments
  infer_instance

instance optionalArguments : Scripted fun d => Parse.optionalArguments d := by
  unfold Parse.optionalArguments
  infer_instance

instance memberAccess? (start : Span) (object : Expr Span) :
    Scripted fun d => Parse.memberAccess? d start object := by
  unfold Parse.memberAccess?
  infer_instance

instance chainLink? (start : Span) (e : Expr Span) :
    Scripted fun d => Parse.chainLink? d start e := by
  unfold Parse.chainLink?
  infer_instance

instance chain : Scripted fun d => Parse.chain d := by
  unfold Parse.chain
  infer_instance

instance construction : Scripted fun d => Parse.construction d := by
  unfold Parse.construction
  infer_instance

instance update : Scripted fun d => Parse.update d := by
  unfold Parse.update
  infer_instance

instance unary : Scripted fun d => Parse.unary d := by
  unfold Parse.unary
  refine andThen fun t => andThen fun await => ?_
  cases await with
  | true =>
    simp only [if_true]
    infer_instance
  | false =>
    refine andThen fun op => ?_
    cases op with
    | none => exact update
    | some op => infer_instance

instance leftAssociative {γ : Type} {operator : ParseM (Option γ)}
    {build : γ → Expr Span → Expr Span → Span → Expr Span} {operand : Deeper → ParseM (Expr Span)}
    [Scripted operand] : Scripted fun d => Parse.leftAssociative operator build (operand d) := by
  unfold Parse.leftAssociative
  infer_instance

instance multiplicative : Scripted fun d => Parse.multiplicative d := leftAssociative

instance additive : Scripted fun d => Parse.additive d := leftAssociative

instance comparison : Scripted fun d => Parse.comparison d := leftAssociative

instance equality : Scripted fun d => Parse.equality d := leftAssociative

instance logicalAnd : Scripted fun d => Parse.logicalAnd d := leftAssociative

instance logicalOr : Scripted fun d => Parse.logicalOr d := leftAssociative

instance conditional : Scripted fun d => Parse.conditional d := by
  unfold Parse.conditional
  infer_instance

instance assignment : Scripted fun d => Parse.assignment d := by
  unfold Parse.assignment
  infer_instance

/-! ## Statements -/

instance variableDeclarator : Scripted fun d => Parse.variableDeclarator d := by
  unfold Parse.variableDeclarator
  dsimp only
  infer_instance

instance variableList (kind : VariableKind) (start : Span) :
    Scripted fun d => Parse.variableList d kind start := by
  unfold Parse.variableList
  infer_instance

instance variableDeclaration (kind : VariableKind) (start : Span) :
    Scripted fun d => Parse.variableDeclaration d kind start := by
  unfold Parse.variableDeclaration
  infer_instance

instance classBody : Scripted fun d => Parse.classBody d := by
  unfold Parse.classBody
  infer_instance

instance classDeclaration : Scripted fun d => Parse.classDeclaration d := by
  unfold Parse.classDeclaration
  dsimp only
  infer_instance

instance ifStatement : Scripted fun d => Parse.ifStatement d := by
  unfold Parse.ifStatement
  dsimp only
  infer_instance

instance forInit : Scripted fun d => Parse.forInit d := by
  unfold Parse.forInit
  infer_instance

instance optionalBefore (mark : String) : Scripted fun d => Parse.optionalBefore d mark := by
  unfold Parse.optionalBefore
  infer_instance

instance forStatement : Scripted fun d => Parse.forStatement d := by
  unfold Parse.forStatement
  infer_instance

instance whileStatement : Scripted fun d => Parse.whileStatement d := by
  unfold Parse.whileStatement
  infer_instance

instance returnStatement : Scripted fun d => Parse.returnStatement d := by
  unfold Parse.returnStatement
  infer_instance

instance expressionStatement : Scripted fun d => Parse.expressionStatement d := by
  unfold Parse.expressionStatement
  infer_instance

instance keywordStatement : Scripted fun d => Parse.keywordStatement d := by
  unfold Parse.keywordStatement
  infer_instance

instance statement : Scripted fun d => Parse.statement d := by
  unfold Parse.statement
  infer_instance

end Scripted

/-! ## The nested routines -/

theorem Nested.scripted (c : Nested α) : Scripted c.routine := by
  cases c with
  | statement => exact Scripted.statement
  | assignment => exact Scripted.assignment
  | unary => exact Scripted.unary
  | construction => exact Scripted.construction

theorem nonempty_presentation : Nonempty Presentation := by
  choose script hscript using fun {α : Type} (c : Nested α) => c.scripted.exists_script
  exact ⟨script, hscript⟩

end Parse

end JsSyntax
