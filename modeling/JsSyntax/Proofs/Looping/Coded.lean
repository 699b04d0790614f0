import JsSyntax.Parse.Budget
import JsSyntax.Proofs.Follow.Statement
import JsSyntax.Proofs.Looping.Ends

/-! # Every routine has code

`Coded f`: the code of the routine `f`, every loop of which reads a token in each round. The code is
put together from the text of a routine: there is an instance for each step, for each way to put
routines together and for the two loops, and the code of a routine has a loop wherever its text has
one.
-/

set_option autoImplicit false
-- The whole text of a routine goes through the search for an instance.
set_option synthInstance.maxSize 1024

namespace JsSyntax

namespace Parse

variable {α β : Type}

/-! ## Rounds -/

namespace Strides

theorem of_some {round : ParseM (Option α)}
    (h : ∀ {s s' a}, round s = .ok (some a) s' → s'.rest.length < s.rest.length) :
    Strides Option.isSome round where
  lt {s s' o} ho hok := by
    obtain ⟨a, rfl⟩ := Option.isSome_iff_exists.1 ho
    exact h hok

theorem of_more {round : ParseM (Item α)}
    (h : ∀ {s s' a}, round s = .ok (.more a) s' → s'.rest.length < s.rest.length) :
    Strides Item.goesOn round where
  lt {s s' x} hx hok := by
    cases x with
    | more a => exact h hok
    | _ => cases hx

theorem more_lt {round : ParseM (Item α)} [hr : Strides Item.goesOn round] {s s' : State} {a : α}
    (h : round s = .ok (.more a) s') : s'.rest.length < s.rest.length :=
  hr.lt rfl h

instance commaItem {element : ParseM α} [Moves element] :
    Strides Item.goesOn (Parse.commaItem element) :=
  of_more commaItem_lt

instance upTo {mark : String} {item : ParseM (Item α)} [Strides Item.goesOn item] :
    Strides Item.goesOn (Parse.upTo mark item) :=
  of_more (upTo_lt more_lt)

instance (priority := low) of_advances {round : ParseM β} {goesOn : β → Bool} [Advances round] :
    Strides goesOn round where
  lt _ h := Advances.lt h

section
variable (d : Deeper) [d.Regular]

instance slot : Strides Item.goesOn
    (do if ← acceptMark "," then return .more none else Parse.commaItem (some <$> d.assignment)) :=
  of_more Alignment.slot_lt

instance member : Strides Item.goesOn
    (do if ← acceptMark ";" then return .more none
        else return .more (some (← methodDefinition d))) :=
  of_more Alignment.member_lt

instance memberAccess? (start : Span) (object : Expr Span) :
    Strides Option.isSome (Parse.memberAccess? d start object) :=
  of_some Alignment.memberAccess?_lt

instance chainLink? (start : Span) (e : Expr Span) :
    Strides Option.isSome (Parse.chainLink? d start e) :=
  of_some Alignment.chainLink?_lt

end

instance operation? {γ : Type} {symbol : γ → String} {ops : List γ}
    {build : γ → Expr Span → Expr Span → Span → Expr Span} {operand : ParseM (Expr Span)}
    [Shrinks operand] (start : Span) (left : Expr Span) : Strides Option.isSome
      (Alignment.operation? (acceptOneOf .operator symbol ops) build operand start left) :=
  of_some Alignment.operation?_lt

end Strides

/-! ## Steps that read nothing -/

instance Forward.emit (e : Event) : Forward (Parse.emit e) := ⟨fun _ => ⟨[], rfl, rfl, rfl⟩⟩

instance Forward.requireUpdateTarget (e : Expr Span) : Forward (Parse.requireUpdateTarget e) := by
  refine ⟨fun s => ⟨[], ?_⟩⟩
  unfold Parse.requireUpdateTarget
  split <;> exact .refl s

instance Forward.target (e : Expr Span) : Forward (Parse.target e) := by
  refine ⟨fun s => ⟨[], ?_⟩⟩
  unfold Parse.target
  cases e.toPattern <;> exact .refl s

/-! ## Code of routines -/

class Coded (f : Deeper → ParseM α) where
  code : Code α
  run_code : ∀ d, code.run d = f d
  paced : code.Paced

namespace Coded

/-! ### Steps -/

/-- What neither repeats nor nests anything is one step. -/
abbrev ofStep (m : ParseM α) [hm : Forward m] : Coded fun _ => m := ⟨.step m, fun _ => rfl, hm⟩

instance pure (a : α) : Coded fun _ => (Pure.pure a : ParseM α) := ofStep _

instance peek : Coded fun _ => Parse.peek := ofStep _

instance atEnd : Coded fun _ => Parse.atEnd := ofStep _

instance isMarkNext (mark : String) : Coded fun _ => Parse.isMarkNext mark := ofStep _

instance isFunctionNext : Coded fun _ => Parse.isFunctionNext := ofStep _

instance nextOneOf (kind : TokenKind) (symbol : α → String) (choices : List α) :
    Coded fun _ => Parse.nextOneOf kind symbol choices := ofStep _

instance spanFrom (start : Span) : Coded fun _ => Parse.spanFrom start := ofStep _

instance discardAdvance : Coded fun _ => discard Parse.advance := ofStep _

instance acceptMark (mark : String) : Coded fun _ => Parse.acceptMark mark := ofStep _

instance acceptOperator (symbol : String) : Coded fun _ => Parse.acceptOperator symbol := ofStep _

instance acceptKeyword (word : String) : Coded fun _ => Parse.acceptKeyword word := ofStep _

instance acceptWord (word : String) : Coded fun _ => Parse.acceptWord word := ofStep _

instance acceptOneOf (kind : TokenKind) (symbol : α → String) (choices : List α) :
    Coded fun _ => Parse.acceptOneOf kind symbol choices := ofStep _

instance require (place : Place) : Coded fun _ => Parse.require place := ofStep _

instance fail (fault : Fault) : Coded fun _ => (Parse.fail fault : ParseM α) := ofStep _

instance unexpected : Coded fun _ => (Parse.unexpected : ParseM α) := ofStep _

instance emit (e : Event) : Coded fun _ => Parse.emit e := ofStep _

instance identifier (place : NamePlace) : Coded fun _ => Parse.identifier place := ofStep _

instance memberName : Coded fun _ => Parse.memberName := ofStep _

instance stringLiteral : Coded fun _ => Parse.stringLiteral := ofStep _

instance numberLiteral : Coded fun _ => Parse.numberLiteral := ofStep _

instance acceptModifier (word : String) : Coded fun _ => Parse.acceptModifier word := ofStep _

instance acceptAccessor : Coded fun _ => Parse.acceptAccessor := ofStep _

instance templateLiteral : Coded fun _ => Parse.templateLiteral := ofStep _

instance requireUpdateTarget (e : Expr Span) : Coded fun _ => Parse.requireUpdateTarget e :=
  ofStep _

instance acceptUnaryOp : Coded fun _ => Parse.acceptUnaryOp := ofStep _

instance target (e : Expr Span) : Coded fun _ => Parse.target e := ofStep _

/-! ### Calls -/

abbrev ofCall (c : Nested α) : Coded fun d => d.call c := ⟨.call c, fun _ => rfl, trivial⟩

instance nestedStatement : Coded fun d => d.statement := ofCall .statement

instance nestedAssignment : Coded fun d => d.assignment := ofCall .assignment

instance nestedUnary : Coded fun d => d.unary := ofCall .unary

instance nestedConstruction : Coded fun d => d.construction := ofCall .construction

/-! ### Sequences and choices -/

abbrev andThen {f : Deeper → ParseM α} {g : Deeper → α → ParseM β} [hf : Coded f]
    (hg : ∀ a, Coded fun d => g d a) : Coded fun d => f d >>= g d where
  code := .bind hf.code fun a => (hg a).code
  run_code d := by
    rw [Code.run, hf.run_code]
    congr 1
    funext a
    exact (hg a).run_code d
  paced := ⟨hf.paced, fun a => (hg a).paced⟩

instance bind {f : Deeper → ParseM α} {g : Deeper → α → ParseM β} [Coded f]
    [hg : ∀ a, Coded fun d => g d a] : Coded fun d => f d >>= g d := andThen hg

/-- A choice is followed by one routine for each case. -/
instance (priority := low) bindOption {f : Deeper → ParseM (Option α)}
    {g : Deeper → Option α → ParseM β} [Coded f] [hn : Coded fun d => g d none]
    [hs : ∀ a, Coded fun d => g d (some a)] : Coded fun d => f d >>= g d :=
  andThen fun
    | none => hn
    | some a => hs a

instance map {f : Deeper → ParseM α} {h : α → β} [Coded f] : Coded fun d => h <$> f d :=
  inferInstanceAs (Coded fun d => f d >>= fun a => Pure.pure (h a))

instance ite {c : Prop} [Decidable c] {f g : Deeper → ParseM α} [hf : Coded f] [hg : Coded g] :
    Coded fun d => if c then f d else g d where
  code := if c then hf.code else hg.code
  run_code d := by
    split
    · exact hf.run_code d
    · exact hg.run_code d
  paced := by
    split
    · exact hf.paced
    · exact hg.paced

/-! ### Loops -/

instance iterate {round : Deeper → α → ParseM (Option α)} [hr : ∀ a, Coded fun d => round d a]
    [hs : ∀ n a, Strides Option.isSome (round (level n) a)] (a : α) :
    Coded fun d => Parse.iterate (round d) a where
  code := .iterate (fun a => (hr a).code) a
  run_code d := by
    rw [Code.run]
    congr 1
    funext a
    exact (hr a).run_code d
  paced a := by
    refine ⟨(hr a).paced, fun n => ?_⟩
    rw [(hr a).run_code]
    exact hs n a

instance collect {round : Deeper → ParseM (Item α)} [hr : Coded round]
    [hs : ∀ n, Strides Item.goesOn (round (level n))] :
    Coded fun d => Parse.collect (round d) where
  code := .collect hr.code
  run_code d := by rw [Code.run, hr.run_code]
  paced := by
    refine ⟨hr.paced, fun n => ?_⟩
    rw [hr.run_code]
    exact hs n

instance commaItem {element : Deeper → ParseM α} [Coded element] :
    Coded fun d => Parse.commaItem (element d) := by
  delta Parse.commaItem
  infer_instance

instance upTo {mark : String} {item : Deeper → ParseM (Item α)} [Coded item] :
    Coded fun d => Parse.upTo mark (item d) := by
  delta Parse.upTo
  infer_instance

/-! ### Functions and members -/

instance parameters : Coded fun _ => Parse.parameters := by
  delta Parse.parameters
  infer_instance

instance block : Coded fun d => Parse.block d := by
  delta Parse.block
  infer_instance

instance methodFunction (async generator : Bool) :
    Coded fun d => Parse.methodFunction d async generator := by
  delta Parse.methodFunction
  infer_instance

instance function : Coded fun d => Parse.function d := by
  delta Parse.function
  dsimp only
  infer_instance

instance propertyKey : Coded fun d => Parse.propertyKey d := by
  delta Parse.propertyKey
  infer_instance

/-- The property that a key alone is. -/
abbrev shorthand (first : Token) (start : Span) (kind : PropertyKind) (key : PropertyKey Span) :
    Coded fun _ => (match key with
      | .ident id =>
        if isReference first then do
          return ⟨key, .ident id, kind, false, true, false, ← Parse.spanFrom start⟩
        else Parse.fail (.missingMark .propertyColon)
      | _ => Parse.fail (.missingMark .propertyColon) : ParseM (Property Span)) := by
  cases key with
  | ident id =>
    dsimp only
    infer_instance
  | computed _ => exact fail _
  | literal _ => exact fail _

instance property : Coded fun d => Parse.property d := by
  delta Parse.property
  dsimp only
  have := shorthand
  infer_instance

instance methodDefinition : Coded fun d => Parse.methodDefinition d := by
  delta Parse.methodDefinition
  dsimp only
  infer_instance

/-! ### Expressions -/

instance arrayLiteral : Coded fun d => Parse.arrayLiteral d := by
  delta Parse.arrayLiteral
  infer_instance

instance objectLiteral : Coded fun d => Parse.objectLiteral d := by
  delta Parse.objectLiteral
  infer_instance

instance group : Coded fun d => Parse.group d := by
  delta Parse.group
  infer_instance

instance keywordPrimary : Coded fun d => Parse.keywordPrimary d := by
  delta Parse.keywordPrimary
  infer_instance

instance markPrimary : Coded fun d => Parse.markPrimary d := by
  delta Parse.markPrimary
  infer_instance

instance primary : Coded fun d => Parse.primary d := by
  delta Parse.primary
  refine andThen fun t => ?_
  cases t.kind with
  | keyword => exact keywordPrimary
  | punctuation => exact markPrimary
  | _ => infer_instance

instance arguments : Coded fun d => Parse.arguments d := by
  delta Parse.arguments
  infer_instance

instance optionalArguments : Coded fun d => Parse.optionalArguments d := by
  delta Parse.optionalArguments
  infer_instance

instance memberAccess? (start : Span) (object : Expr Span) :
    Coded fun d => Parse.memberAccess? d start object := by
  delta Parse.memberAccess?
  infer_instance

instance chainLink? (start : Span) (e : Expr Span) :
    Coded fun d => Parse.chainLink? d start e := by
  delta Parse.chainLink?
  infer_instance

instance chain : Coded fun d => Parse.chain d := by
  delta Parse.chain
  infer_instance

instance construction : Coded fun d => Parse.construction d := by
  delta Parse.construction
  infer_instance

instance update : Coded fun d => Parse.update d := by
  delta Parse.update
  infer_instance

instance unary : Coded fun d => Parse.unary d := by
  delta Parse.unary
  have operation (start : Span) : Coded fun d => (do
      match ← Parse.acceptUnaryOp with
      | some op =>
        let argument ← d.unary
        return .unary op argument (← Parse.spanFrom start)
      | none => Parse.update d : ParseM (Expr Span)) := by
    refine andThen fun op => ?_
    cases op with
    | some op => infer_instance
    | none => exact update
  infer_instance

/-- One level of operators, if its operands read tokens forward. -/
abbrev operations {γ : Type} {symbol : γ → String} {ops : List γ}
    {build : γ → Expr Span → Expr Span → Span → Expr Span} {operand : Deeper → ParseM (Expr Span)}
    [Coded operand] [hm : ∀ n, Shrinks (operand (level n))] : Coded fun d =>
      Parse.leftAssociative (Parse.acceptOneOf .operator symbol ops) build (operand d) := by
  delta Parse.leftAssociative
  have : ∀ n start left, Strides Option.isSome (Alignment.operation?
    (Parse.acceptOneOf .operator symbol ops) build (operand (level n)) start left) := inferInstance
  delta Alignment.operation? at this
  infer_instance

instance binaryLevel (ops : List BinaryOp) {operand : Deeper → ParseM (Expr Span)}
    [Coded operand] [∀ n, Shrinks (operand (level n))] :
    Coded fun d => Parse.binaryLevel ops (operand d) := operations

instance logicalLevel (op : LogicalOp) {operand : Deeper → ParseM (Expr Span)}
    [Coded operand] [∀ n, Shrinks (operand (level n))] :
    Coded fun d => Parse.logicalLevel op (operand d) := operations

instance multiplicative : Coded fun d => Parse.multiplicative d :=
  inferInstanceAs (Coded fun d => Parse.binaryLevel _ (Parse.unary d))

instance additive : Coded fun d => Parse.additive d :=
  inferInstanceAs (Coded fun d => Parse.binaryLevel _ (Parse.multiplicative d))

instance comparison : Coded fun d => Parse.comparison d :=
  inferInstanceAs (Coded fun d => Parse.binaryLevel _ (Parse.additive d))

instance equality : Coded fun d => Parse.equality d :=
  inferInstanceAs (Coded fun d => Parse.binaryLevel _ (Parse.comparison d))

instance logicalAnd : Coded fun d => Parse.logicalAnd d :=
  inferInstanceAs (Coded fun d => Parse.logicalLevel _ (Parse.equality d))

instance logicalOr : Coded fun d => Parse.logicalOr d :=
  inferInstanceAs (Coded fun d => Parse.logicalLevel _ (Parse.logicalAnd d))

instance conditional : Coded fun d => Parse.conditional d := by
  delta Parse.conditional
  infer_instance

instance assignment : Coded fun d => Parse.assignment d := by
  delta Parse.assignment
  infer_instance

/-! ### Statements -/

instance variableDeclarator : Coded fun d => Parse.variableDeclarator d := by
  delta Parse.variableDeclarator
  dsimp only
  infer_instance

instance variableList (kind : VariableKind) (start : Span) :
    Coded fun d => Parse.variableList d kind start := by
  delta Parse.variableList
  infer_instance

instance variableDeclaration (kind : VariableKind) (start : Span) :
    Coded fun d => Parse.variableDeclaration d kind start := by
  delta Parse.variableDeclaration
  infer_instance

instance classBody : Coded fun d => Parse.classBody d := by
  delta Parse.classBody
  infer_instance

instance classDeclaration : Coded fun d => Parse.classDeclaration d := by
  delta Parse.classDeclaration
  dsimp only
  infer_instance

instance ifStatement : Coded fun d => Parse.ifStatement d := by
  delta Parse.ifStatement
  dsimp only
  infer_instance

instance forInit : Coded fun d => Parse.forInit d := by
  delta Parse.forInit
  infer_instance

instance optionalBefore (mark : String) : Coded fun d => Parse.optionalBefore d mark := by
  delta Parse.optionalBefore
  infer_instance

instance forStatement : Coded fun d => Parse.forStatement d := by
  delta Parse.forStatement
  infer_instance

instance whileStatement : Coded fun d => Parse.whileStatement d := by
  delta Parse.whileStatement
  infer_instance

instance returnStatement : Coded fun d => Parse.returnStatement d := by
  delta Parse.returnStatement
  infer_instance

instance expressionStatement : Coded fun d => Parse.expressionStatement d := by
  delta Parse.expressionStatement
  infer_instance

instance keywordStatement : Coded fun d => Parse.keywordStatement d := by
  delta Parse.keywordStatement
  infer_instance

instance statement : Coded fun d => Parse.statement d := by
  delta Parse.statement
  infer_instance

end Coded

/-! ## The nested routines -/

@[reducible] def Nested.coded : (c : Nested α) → Coded c.routine
  | .statement => Coded.statement
  | .assignment => Coded.assignment
  | .unary => Coded.unary
  | .construction => Coded.construction

/-- The code of the four nested routines, as their texts have it. -/
def library : Library where
  code c := c.coded.code
  run_code c := c.coded.run_code
  paced c := c.coded.paced

/-! ## All routines -/

namespace Shrinks

theorem iterate_go {round : α → ParseM (Option α)} [∀ a, Shrinks (round a)] (fuel : List Token)
    (a : α) : Shrinks (iterate.go round fuel a) := by
  induction fuel generalizing a with
  | nil => exact inferInstanceAs (Shrinks (Pure.pure a : ParseM α))
  | cons t fuel ih =>
    have := ih
    unfold iterate.go
    infer_instance

instance iterate {round : α → ParseM (Option α)} [∀ a, Shrinks (round a)] (a : α) :
    Shrinks (Parse.iterate round a) :=
  ⟨fun s => (iterate_go s.ahead a).le s⟩

instance leftAssociative {γ : Type} {operator : ParseM (Option γ)}
    {build : γ → Expr Span → Expr Span → Span → Expr Span} {operand : ParseM (Expr Span)}
    [Shrinks operator] [Shrinks operand] :
    Shrinks (Parse.leftAssociative operator build operand) := by
  unfold Parse.leftAssociative
  infer_instance

end Shrinks

namespace Routine

instance shrinks (d : Deeper) [hd : d.Regular] (r : Routine α) : Shrinks (r.run d) := by
  induction r with
  | binaryLevel ops operand ih => exact Shrinks.leftAssociative
  | logicalLevel op operand ih => exact Shrinks.leftAssociative
  | _ =>
    dsimp only [run]
    infer_instance

instance coded : {α : Type} → (r : Routine α) → Coded fun d => r.run d
  | _, .nestedStatement => Coded.nestedStatement
  | _, .nestedAssignment => Coded.nestedAssignment
  | _, .nestedUnary => Coded.nestedUnary
  | _, .nestedConstruction => Coded.nestedConstruction
  | _, .identifier place => Coded.identifier place
  | _, .memberName => Coded.memberName
  | _, .parameters => Coded.parameters
  | _, .block => Coded.block
  | _, .methodFunction async generator => Coded.methodFunction async generator
  | _, .function => Coded.function
  | _, .stringLiteral => Coded.stringLiteral
  | _, .numberLiteral => Coded.numberLiteral
  | _, .propertyKey => Coded.propertyKey
  | _, .property => Coded.property
  | _, .methodDefinition => Coded.methodDefinition
  | _, .arrayLiteral => Coded.arrayLiteral
  | _, .objectLiteral => Coded.objectLiteral
  | _, .group => Coded.group
  | _, .templateLiteral => Coded.templateLiteral
  | _, .keywordPrimary => Coded.keywordPrimary
  | _, .markPrimary => Coded.markPrimary
  | _, .primary => Coded.primary
  | _, .arguments => Coded.arguments
  | _, .optionalArguments => Coded.optionalArguments
  | _, .memberAccess? start object => Coded.memberAccess? start object
  | _, .chainLink? start e => Coded.chainLink? start e
  | _, .chain => Coded.chain
  | _, .construction => Coded.construction
  | _, .update => Coded.update
  | _, .unary => Coded.unary
  | _, .binaryLevel ops operand =>
    have := operand.coded
    Coded.binaryLevel ops
  | _, .logicalLevel op operand =>
    have := operand.coded
    Coded.logicalLevel op
  | _, .multiplicative => Coded.multiplicative
  | _, .additive => Coded.additive
  | _, .comparison => Coded.comparison
  | _, .equality => Coded.equality
  | _, .logicalAnd => Coded.logicalAnd
  | _, .logicalOr => Coded.logicalOr
  | _, .conditional => Coded.conditional
  | _, .target e => Coded.target e
  | _, .assignment => Coded.assignment
  | _, .variableDeclarator => Coded.variableDeclarator
  | _, .variableList kind start => Coded.variableList kind start
  | _, .variableDeclaration kind start => Coded.variableDeclaration kind start
  | _, .classBody => Coded.classBody
  | _, .classDeclaration => Coded.classDeclaration
  | _, .ifStatement => Coded.ifStatement
  | _, .forInit => Coded.forInit
  | _, .optionalBefore mark => Coded.optionalBefore mark
  | _, .forStatement => Coded.forStatement
  | _, .whileStatement => Coded.whileStatement
  | _, .returnStatement => Coded.returnStatement
  | _, .expressionStatement => Coded.expressionStatement
  | _, .keywordStatement => Coded.keywordStatement
  | _, .statement => Coded.statement

end Routine

/-- The loop in the text of a routine is a loop of its code. -/
example : Coded.code chain = .bind (.step peek) fun t => .bind (Coded.code primary) fun e =>
    .iterate (fun e => Coded.code fun d => chainLink? d t.span e) e := rfl

end Parse

end JsSyntax
