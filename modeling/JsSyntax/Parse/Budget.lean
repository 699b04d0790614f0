import JsSyntax.Parse.Program

/-! # Parsing within a budget

The routines of the parser once more, as calls of one another that cost something: a routine with a
budget calls others with a budget smaller by one, and with no budget it cannot be called at all.
Steps and the repetition of a loop cost nothing. The levels of nesting that are left are handed on
as well, and the four nested routines hand on one less.

* `Routine` : the routines with what they are called with.
* `within` : a call with a budget.
* `parseWithin` : the program of a source, unless the budget is used up somewhere.
-/

set_option autoImplicit false

namespace JsSyntax

namespace Parse

/-! ## Running out -/

/-- The budget is used up. -/
inductive Exhausted where
  | exhausted

/-- Parsing that may use up its budget. -/
abbrev Budgeted := ExceptT Exhausted ParseM

namespace Budgeted

variable {α : Type}

/-- A step, which costs nothing. -/
abbrev free (step : ParseM α) : Budgeted α := liftM step

/-- Applies `step` at most once for each of the tokens. -/
def iterate.go (step : α → Budgeted (Option α)) : List Token → α → Budgeted α
  | [], a => pure a
  | _ :: fuel, a => do
    match ← step a with
    | some b => iterate.go step fuel b
    | none => return a

/-- Applies `step` until it gives nothing, and returns the last value. -/
def iterate (step : α → Budgeted (Option α)) (a : α) : Budgeted α := do
  let s ← free get
  iterate.go step s.ahead a

/-- Collects the elements of at most one step for each of the tokens. -/
def collect.go (step : Budgeted (Item α)) : List Token → Budgeted (List α)
  | [] => pure []
  | _ :: fuel => do
    match ← step with
    | .stop => return []
    | .last a => return [a]
    | .more a => return a :: (← collect.go step fuel)

/-- Collects the elements that `step` finds, in order. -/
def collect (step : Budgeted (Item α)) : Budgeted (List α) := do
  let s ← free get
  collect.go step s.ahead

/-- An element of a list with commas between the elements: without a comma it is the last. -/
def commaItem (element : Budgeted α) : Budgeted (Item α) := do
  let a ← element
  return if ← acceptMark "," then .more a else .last a

/-- Elements up to the closing mark, which is not read. -/
def upTo (mark : String) (item : Budgeted (Item α)) : Budgeted (Item α) := do
  if ← isMarkNext mark then return .stop
  else if ← atEnd then return .stop
  else item

/-- Operands of one level with operators between them, grouped to the left. -/
def leftAssociative (operator : ParseM (Option α))
    (build : α → Expr Span → Expr Span → Span → Expr Span) (operand : Budgeted (Expr Span)) :
    Budgeted (Expr Span) := do
  let start := (← peek).span
  let first ← operand
  iterate (fun left => do
    match ← operator with
    | some op =>
      let right ← operand
      return some (build op left right (← spanFrom start))
    | none => return none) first

/-- An element that may be left out. -/
def slotted {β : Type} (element : α → Budgeted β) : Option α → Budgeted (Option β)
  | none => return none
  | some a => return some (← element a)

end Budgeted

/-! ## Routines -/

/-- The routines with what they are called with, by what they give. -/
inductive Routine : Type → Type where
  /- Nesting -/
  | nestedStatement : Routine (Statement Span)
  | nestedAssignment : Routine (Expr Span)
  | nestedUnary : Routine (Expr Span)
  | nestedConstruction : Routine (Expr Span)
  /- Names and functions -/
  | identifier (place : NamePlace) : Routine (Ident Span)
  | memberName : Routine (Ident Span)
  | parameters : Routine (List (Ident Span))
  | block : Routine (Block Span)
  | methodFunction (async generator : Bool) : Routine (Func Span)
  | function : Routine (Func Span)
  /- Members -/
  | stringLiteral : Routine (Literal Span)
  | numberLiteral : Routine (Literal Span)
  | propertyKey : Routine (PropertyKey Span × Bool)
  | property : Routine (Property Span)
  | methodDefinition : Routine (MethodDefinition Span)
  /- Primaries -/
  | arrayLiteral : Routine (Expr Span)
  | objectLiteral : Routine (Expr Span)
  | group : Routine (Expr Span)
  | templateLiteral : Routine (Expr Span)
  | keywordPrimary : Routine (Expr Span)
  | markPrimary : Routine (Expr Span)
  | primary : Routine (Expr Span)
  /- Accesses and calls -/
  | arguments : Routine (List (Expr Span))
  | optionalArguments : Routine (List (Expr Span))
  | memberAccess? (start : Span) (object : Expr Span) : Routine (Option (Expr Span))
  | chainLink? (start : Span) (e : Expr Span) : Routine (Option (Expr Span))
  | chain : Routine (Expr Span)
  | construction : Routine (Expr Span)
  /- Operators -/
  | update : Routine (Expr Span)
  | unary : Routine (Expr Span)
  | binaryLevel (ops : List BinaryOp) (operand : Routine (Expr Span)) : Routine (Expr Span)
  | logicalLevel (op : LogicalOp) (operand : Routine (Expr Span)) : Routine (Expr Span)
  | multiplicative : Routine (Expr Span)
  | additive : Routine (Expr Span)
  | comparison : Routine (Expr Span)
  | equality : Routine (Expr Span)
  | logicalAnd : Routine (Expr Span)
  | logicalOr : Routine (Expr Span)
  | conditional : Routine (Expr Span)
  | target (e : Expr Span) : Routine (Pattern Span)
  | assignment : Routine (Expr Span)
  /- Statements -/
  | variableDeclarator : Routine (VariableDeclarator Span)
  | variableList (kind : VariableKind) (start : Span) : Routine (VariableDeclaration Span)
  | variableDeclaration (kind : VariableKind) (start : Span) : Routine (VariableDeclaration Span)
  | classBody : Routine (ClassBody Span)
  | classDeclaration : Routine (Class Span)
  | ifStatement : Routine (Statement Span)
  | forInit : Routine (Option (ForInit Span))
  | optionalBefore (mark : String) : Routine (Option (Expr Span))
  | forStatement : Routine (Statement Span)
  | whileStatement : Routine (Statement Span)
  | returnStatement : Routine (Statement Span)
  | expressionStatement : Routine (Statement Span)
  | keywordStatement : Routine (Statement Span)
  | statement : Routine (Statement Span)

namespace Routine

open Budgeted

/-- The routine without a budget, with the routines one level deeper. -/
@[simp] def run (d : Deeper) : {α : Type} → Routine α → ParseM α
  | _, .nestedStatement => d.statement
  | _, .nestedAssignment => d.assignment
  | _, .nestedUnary => d.unary
  | _, .nestedConstruction => d.construction
  | _, .identifier place => Parse.identifier place
  | _, .memberName => Parse.memberName
  | _, .parameters => Parse.parameters
  | _, .block => Parse.block d
  | _, .methodFunction async generator => Parse.methodFunction d async generator
  | _, .function => Parse.function d
  | _, .stringLiteral => Parse.stringLiteral
  | _, .numberLiteral => Parse.numberLiteral
  | _, .propertyKey => Parse.propertyKey d
  | _, .property => Parse.property d
  | _, .methodDefinition => Parse.methodDefinition d
  | _, .arrayLiteral => Parse.arrayLiteral d
  | _, .objectLiteral => Parse.objectLiteral d
  | _, .group => Parse.group d
  | _, .templateLiteral => Parse.templateLiteral
  | _, .keywordPrimary => Parse.keywordPrimary d
  | _, .markPrimary => Parse.markPrimary d
  | _, .primary => Parse.primary d
  | _, .arguments => Parse.arguments d
  | _, .optionalArguments => Parse.optionalArguments d
  | _, .memberAccess? start object => Parse.memberAccess? d start object
  | _, .chainLink? start e => Parse.chainLink? d start e
  | _, .chain => Parse.chain d
  | _, .construction => Parse.construction d
  | _, .update => Parse.update d
  | _, .unary => Parse.unary d
  | _, .binaryLevel ops operand => Parse.binaryLevel ops (operand.run d)
  | _, .logicalLevel op operand => Parse.logicalLevel op (operand.run d)
  | _, .multiplicative => Parse.multiplicative d
  | _, .additive => Parse.additive d
  | _, .comparison => Parse.comparison d
  | _, .equality => Parse.equality d
  | _, .logicalAnd => Parse.logicalAnd d
  | _, .logicalOr => Parse.logicalOr d
  | _, .conditional => Parse.conditional d
  | _, .target e => Parse.target e
  | _, .assignment => Parse.assignment d
  | _, .variableDeclarator => Parse.variableDeclarator d
  | _, .variableList kind start => Parse.variableList d kind start
  | _, .variableDeclaration kind start => Parse.variableDeclaration d kind start
  | _, .classBody => Parse.classBody d
  | _, .classDeclaration => Parse.classDeclaration d
  | _, .ifStatement => Parse.ifStatement d
  | _, .forInit => Parse.forInit d
  | _, .optionalBefore mark => Parse.optionalBefore d mark
  | _, .forStatement => Parse.forStatement d
  | _, .whileStatement => Parse.whileStatement d
  | _, .returnStatement => Parse.returnStatement d
  | _, .expressionStatement => Parse.expressionStatement d
  | _, .keywordStatement => Parse.keywordStatement d
  | _, .statement => Parse.statement d

/-! ## Texts -/

/-- What a routine does: `call` calls a routine at the same level of nesting, `deeper` one at the
next. -/
def body (call deeper : {α : Type} → Routine α → Budgeted α) : {α : Type} → Routine α → Budgeted α
  | _, .nestedStatement => deeper .statement
  | _, .nestedAssignment => deeper .assignment
  | _, .nestedUnary => deeper .unary
  | _, .nestedConstruction => deeper .construction
  | _, .identifier place => free (Parse.identifier place)
  | _, .memberName => free Parse.memberName
  | _, .parameters => do
    require .parametersStart
    let params ←
      if ← isMarkNext ")" then pure []
      else Budgeted.collect (Budgeted.commaItem (call (.identifier .parameter)))
    require .parametersEnd
    return params
  | _, .block => do
    let start := (← peek).span
    require .blockStart
    let body ← Budgeted.collect (Budgeted.upTo "\x7d" do return .more (← call .nestedStatement))
    require .blockEnd
    return ⟨body, ← spanFrom start⟩
  | _, .methodFunction async generator => do
    let start := (← peek).span
    let params ← call .parameters
    let body ← call .block
    return ⟨none, params, body, generator, async, ← spanFrom start⟩
  | _, .function => do
    let start := (← peek).span
    let async ← acceptKeyword "async"
    free (discard advance)
    let generator ← acceptOperator "*"
    let id ←
      if (← peek).kind = .identifier then some <$> call (.identifier .variable) else pure none
    let params ← call .parameters
    let body ← call .block
    return ⟨id, params, body, generator, async, ← spanFrom start⟩
  | _, .stringLiteral => free Parse.stringLiteral
  | _, .numberLiteral => free Parse.numberLiteral
  | _, .propertyKey => do
    let t ← peek
    if t.isPunctuation "[" then
      free (discard advance)
      let key ← call .nestedAssignment
      require .computedKeyEnd
      return (.computed key, true)
    else if isName t then
      free (discard advance)
      return (.ident ⟨t.value, t.span⟩, false)
    else if t.kind = .string then
      return (.literal (← call .stringLiteral), false)
    else if t.kind = .number then
      return (.literal (← call .numberLiteral), false)
    else
      free (fail (.missingName .key))
  | _, .property => do
    let start := (← peek).span
    let kind : PropertyKind := match ← acceptAccessor with
      | some true => .get
      | some false => .set
      | none => .init
    let async ← if kind = .init then acceptModifier "async" else pure false
    let generator ← if kind = .init then acceptOperator "*" else pure false
    let first ← peek
    let (key, computed) ← call .propertyKey
    if kind ≠ .init || async || generator || (← isMarkNext "(") then
      let value ← call (.methodFunction async generator)
      return ⟨key, .function value, kind, computed, false, kind = .init, ← spanFrom start⟩
    else if ← acceptMark ":" then
      let value ← call .nestedAssignment
      return ⟨key, value, kind, computed, false, false, ← spanFrom start⟩
    else
      match key with
      | .ident id =>
        if isReference first then
          return ⟨key, .ident id, kind, false, true, false, ← spanFrom start⟩
        else free (fail (.missingMark .propertyColon))
      | _ => free (fail (.missingMark .propertyColon))
  | _, .methodDefinition => do
    let start := (← peek).span
    let static ← acceptModifier "static"
    let async ← acceptModifier "async"
    let generator ← acceptOperator "*"
    let accessor ← if async || generator then pure none else acceptAccessor
    let (key, computed) ← call .propertyKey
    let value ← call (.methodFunction async generator)
    return ⟨key, value, methodKind accessor static computed key, computed, static,
      ← spanFrom start⟩
  | _, .arrayLiteral => do
    let start := (← peek).span
    free (discard advance)
    let elements ← Budgeted.collect (Budgeted.upTo "]" do
      if ← acceptMark "," then return .more none
      else Budgeted.commaItem (some <$> call .nestedAssignment))
    require .arrayEnd
    return .array elements (← spanFrom start)
  | _, .objectLiteral => do
    let start := (← peek).span
    free (discard advance)
    let properties ← Budgeted.collect (Budgeted.upTo "\x7d" (Budgeted.commaItem (call .property)))
    require .objectEnd
    return .object properties (← spanFrom start)
  | _, .group => do
    free (discard advance)
    let e ← call .nestedAssignment
    require .groupEnd
    return e
  | _, .templateLiteral => free Parse.templateLiteral
  | _, .keywordPrimary => do
    let t ← peek
    if t.value = "this" then
      free (discard advance)
      return .this t.span
    else if t.value = "super" then
      free (discard advance)
      return .super t.span
    else if globalNames.contains t.value then
      free (discard advance)
      return .ident ⟨t.value, t.span⟩
    else if ← isFunctionNext then
      return .function (← call .function)
    else if t.value = "new" then
      call .nestedConstruction
    else
      free unexpected
  | _, .markPrimary => do
    let t ← peek
    if t.value = "(" then call .group
    else if t.value = "[" then call .arrayLiteral
    else if t.value = "\x7b" then call .objectLiteral
    else free unexpected
  | _, .primary => do
    let t ← peek
    match t.kind with
    | .identifier =>
      free (discard advance)
      return .ident ⟨t.value, t.span⟩
    | .number => return .literal (← call .numberLiteral)
    | .string => return .literal (← call .stringLiteral)
    | .boolean =>
      free (discard advance)
      return .literal ⟨.boolean (t.value = "true"), t.value, t.span⟩
    | .null =>
      free (discard advance)
      return .literal ⟨.null, t.value, t.span⟩
    | .templateString => call .templateLiteral
    | .punctuation => call .markPrimary
    | .keyword => call .keywordPrimary
    | .operator | .comment | .eof | .unknown => free unexpected
  | _, .arguments => do
    let list ←
      if ← isMarkNext ")" then pure []
      else Budgeted.collect (Budgeted.commaItem (call .nestedAssignment))
    require .argumentsEnd
    return list
  | _, .optionalArguments => do
    if ← acceptMark "(" then call .arguments else pure []
  | _, .memberAccess? start object => do
    if ← acceptMark "[" then
      let property ← call .nestedAssignment
      require .computedMemberEnd
      return some (.member object (.expr property) true (← spanFrom start))
    else if ← acceptMark "." then
      let property ← call .memberName
      return some (.member object (.ident property) false (← spanFrom start))
    else
      return none
  | _, .chainLink? start e => do
    if ← acceptMark "(" then
      let list ← call .arguments
      return some (.call e list (← spanFrom start))
    else
      match ← call (.memberAccess? start e) with
      | some access => return some access
      | none =>
        if ← acceptKeyword "new" then
          let list ← call .optionalArguments
          return some (.new e list (← spanFrom start))
        else
          return none
  | _, .chain => do
    let start := (← peek).span
    let e ← call .primary
    Budgeted.iterate (fun e => call (.chainLink? start e)) e
  | _, .construction => do
    let start := (← peek).span
    free (discard advance)
    let calleeStart := (← peek).span
    let callee ← call .primary
    let callee ← Budgeted.iterate (fun e => call (.memberAccess? calleeStart e)) callee
    let list ← call .optionalArguments
    return .new callee list (← spanFrom start)
  | _, .update => do
    let start := (← peek).span
    match ← acceptOneOf .operator UpdateOp.symbol UpdateOp.all with
    | some op =>
      let argument ← call .nestedUnary
      requireUpdateTarget argument
      return .update op true argument (← spanFrom start)
    | none =>
      let e ← call .chain
      match ← nextOneOf .operator UpdateOp.symbol UpdateOp.all with
      | some op =>
        requireUpdateTarget e
        free (discard advance)
        return .update op false e (← spanFrom start)
      | none => return e
  | _, .unary => do
    let start := (← peek).span
    if ← acceptKeyword "await" then
      let argument ← call .nestedUnary
      return .await argument (← spanFrom start)
    else
      match ← acceptUnaryOp with
      | some op =>
        let argument ← call .nestedUnary
        return .unary op argument (← spanFrom start)
      | none => call .update
  | _, .binaryLevel ops operand =>
    Budgeted.leftAssociative (acceptOneOf .operator BinaryOp.symbol ops) Expr.binary (call operand)
  | _, .logicalLevel op operand =>
    Budgeted.leftAssociative (acceptOneOf .operator LogicalOp.symbol [op]) Expr.logical
      (call operand)
  | _, .multiplicative => call (.binaryLevel BinaryOp.multiplicative .unary)
  | _, .additive => call (.binaryLevel BinaryOp.additive .multiplicative)
  | _, .comparison => call (.binaryLevel BinaryOp.comparison .additive)
  | _, .equality => call (.binaryLevel BinaryOp.equality .comparison)
  | _, .logicalAnd => call (.logicalLevel .and .equality)
  | _, .logicalOr => call (.logicalLevel .or .logicalAnd)
  | _, .conditional => do
    let start := (← peek).span
    let test ← call .logicalOr
    if ← acceptOperator "?" then
      let consequent ← call .nestedAssignment
      require .conditionalColon
      let alternate ← call .nestedAssignment
      return .conditional test consequent alternate (← spanFrom start)
    else
      return test
  | _, .target e =>
    match e with
    | .ident id => return .ident id
    | .member base name computed s => return .member base name computed s
    | .array elements s => do
      let elements ← elements.mapM (slotted fun e => call (.target e))
      return .array elements s
    | .object properties s => do
      let properties ← properties.mapM fun p => do
        if p.kind ≠ .init ∨ p.method then
          free (throw (invalidTarget p.span))
        else
          let value ← call (.target p.value)
          return ⟨p.key, value, p.computed, p.shorthand, p.span⟩
      return .object properties s
    | e => free (throw (invalidTarget e.span))
  | _, .assignment => do
    let start := (← peek).span
    let left ← call .conditional
    match ← acceptOneOf .operator AssignmentOp.symbol AssignmentOp.all with
    | some op =>
      let left ← call (.target left)
      let right ← call .nestedAssignment
      return .assign op left right (← spanFrom start)
    | none => return left
  | _, .variableDeclarator => do
    let id ← call (.identifier .variable)
    let init ← if ← acceptOperator "=" then some <$> call .nestedAssignment else pure none
    return ⟨id, init, ← spanFrom id.span⟩
  | _, .variableList kind start => do
    let declarations ← Budgeted.collect (Budgeted.commaItem (call .variableDeclarator))
    return ⟨kind, declarations, ← spanFrom start⟩
  | _, .variableDeclaration kind start => do
    let declaration ← call (.variableList kind start)
    require .variableEnd
    return { declaration with span := ← spanFrom start }
  | _, .classBody => do
    let start := (← peek).span
    require .classStart
    let members ← Budgeted.collect (Budgeted.upTo "\x7d" do
      if ← acceptMark ";" then return .more none
      else return .more (some (← call .methodDefinition)))
    require .classEnd
    return ⟨members.filterMap id, ← spanFrom start⟩
  | _, .classDeclaration => do
    let start := (← peek).span
    free (discard advance)
    let id ← call (.identifier .className)
    let superClass ← if ← acceptWord "extends" then some <$> call .chain else pure none
    let body ← call .classBody
    return ⟨id, superClass, body, ← spanFrom start⟩
  | _, .ifStatement => do
    let start := (← peek).span
    free (discard advance)
    require .ifStart
    let test ← call .nestedAssignment
    require .ifEnd
    let consequent ← call .nestedStatement
    let alternate ← if ← acceptKeyword "else" then some <$> call .nestedStatement else pure none
    return .ifElse test consequent alternate (← spanFrom start)
  | _, .forInit => do
    if ← isMarkNext ";" then
      return none
    else
      let start := (← peek).span
      match ← acceptOneOf .keyword VariableKind.keyword VariableKind.all with
      | some kind => return some (.vars (← call (.variableList kind start)))
      | none => return some (.expr (← call .nestedAssignment))
  | _, .optionalBefore mark => do
    if ← isMarkNext mark then pure none else some <$> call .nestedAssignment
  | _, .forStatement => do
    let start := (← peek).span
    free (discard advance)
    require .forStart
    let init ← call .forInit
    require .forInitEnd
    let test ← call (.optionalBefore ";")
    require .forTestEnd
    let update ← call (.optionalBefore ")")
    require .forEnd
    let body ← call .nestedStatement
    return .forLoop init test update body (← spanFrom start)
  | _, .whileStatement => do
    let start := (← peek).span
    free (discard advance)
    require .whileStart
    let test ← call .nestedAssignment
    require .whileEnd
    let body ← call .nestedStatement
    return .whileLoop test body (← spanFrom start)
  | _, .returnStatement => do
    let start := (← peek).span
    free (discard advance)
    let argument ← call (.optionalBefore ";")
    require .returnEnd
    return .ret argument (← spanFrom start)
  | _, .expressionStatement => do
    let start := (← peek).span
    let e ← call .nestedAssignment
    require .statementEnd
    return .expression e (← spanFrom start)
  | _, .keywordStatement => do
    let t ← peek
    if ← isFunctionNext then return .function (← call .function)
    else if t.value = "class" then return .classDeclaration (← call .classDeclaration)
    else if t.value = "if" then call .ifStatement
    else if t.value = "for" then call .forStatement
    else if t.value = "while" then call .whileStatement
    else if t.value = "return" then call .returnStatement
    else call .expressionStatement
  | _, .statement => do
    let t ← peek
    emit (.statement t)
    match ← acceptOneOf .keyword VariableKind.keyword VariableKind.all with
    | some kind => return .vars (← call (.variableDeclaration kind t.span))
    | none =>
      if t.kind = .keyword then call .keywordStatement
      else if t.isPunctuation "\x7b" then return .block (← call .block)
      else if t.isPunctuation ";" then
        free (discard advance)
        return .empty t.span
      else call .expressionStatement

end Routine

/-! ## Calls -/

/-- A call with a budget and with levels of nesting left. -/
def within : Nat → Nat → {α : Type} → Routine α → Budgeted α
  | 0, _, _, _ => throw .exhausted
  | budget + 1, levels, _, r =>
    r.body (within budget levels) <|
      match levels with
      | 0 => fun _ => Budgeted.free (fail .nestingTooDeep)
      | levels + 1 => within budget levels

/-! ## Programs -/

/-- The outcome of one statement at the top level, and where parsing goes on. -/
def nextOutcomeWithin (budget levels : Nat) (s : State) : Option (Outcome × State) :=
  match (within budget levels .nestedStatement).run s with
  | .ok (.ok statement) s => some (.ok statement, s)
  | .ok (.error .exhausted) _ => none
  | .error e s => some (.error e, recover { s with events := .failed e :: s.events })

/-- The outcomes of at most `fuel` stretches. -/
def outcomesWithin (budget levels : Nat) : Nat → State → Option (List Outcome × State)
  | 0, s => some ([], s)
  | fuel + 1, s =>
    if s.atEnd then some ([], s)
    else do
      let (outcome, s) ← nextOutcomeWithin budget levels s
      let (later, s) ← outcomesWithin budget levels fuel s
      some (outcome :: later, s)

end Parse

/-- The program of a source, unless the budget is used up. -/
def parseWithin (budget : Nat) (source : String) : Option Program := do
  let all := tokenize source
  let comments := all.filter (·.kind = .comment)
  let tokens := all.filter (·.kind ≠ .comment)
  let start := Parse.State.ofTokens tokens
  let start := { start with
    events := .parsing tokens.length :: (Parse.tokenizeEvents source all).reverse }
  let (found, s) ← Parse.outcomesWithin budget nestingLimit start.rest.length start
  let body := found.filterMap Parse.statementOf?
  let errors := found.filterMap Parse.errorOf?
  return ⟨body, comments, errors, s.spanFrom start.current.span⟩

end JsSyntax
