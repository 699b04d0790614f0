import JsSyntax.Parse.Member

/-! # Expressions

One routine for each level of precedence, from the primaries to the assignment. Operators of one
level group to the left, assignments and conditionals to the right.
-/

set_option autoImplicit false

namespace JsSyntax

namespace Parse

variable (d : Deeper)

/-! ## Primaries -/

/-- Elements in brackets; a comma with no element before it leaves a hole. -/
def arrayLiteral : ParseM (Expr Span) := do
  let start := (← peek).span
  discard advance
  let elements ← collect (upTo "]" do
    if ← acceptMark "," then return .more none else commaItem (some <$> d.assignment))
  require .arrayEnd
  return .array elements (← spanFrom start)

def objectLiteral : ParseM (Expr Span) := do
  let start := (← peek).span
  discard advance
  let properties ← collect (upTo "\x7d" (commaItem (property d)))
  require .objectEnd
  return .object properties (← spanFrom start)

/-- An expression in parentheses, which leave no node. -/
def group : ParseM (Expr Span) := do
  discard advance
  let e ← d.assignment
  require .groupEnd
  return e

/-- A template, whose text is kept whole. -/
def templateLiteral : ParseM (Expr Span) := do
  let t ← advance
  return .template [⟨literalBody t.value, t.value, true, t.span⟩] [] t.span

/-- A keyword that starts a primary. -/
def keywordPrimary : ParseM (Expr Span) := do
  let t ← peek
  if t.value = "this" then
    discard advance
    return .this t.span
  else if t.value = "super" then
    discard advance
    return .super t.span
  else if globalNames.contains t.value then
    discard advance
    return .ident ⟨t.value, t.span⟩
  else if ← isFunctionNext then
    return .function (← function d)
  else if t.value = "new" then
    d.construction
  else
    unexpected

/-- A punctuation mark that starts a primary. -/
def markPrimary : ParseM (Expr Span) := do
  let t ← peek
  if t.value = "(" then group d
  else if t.value = "[" then arrayLiteral d
  else if t.value = "\x7b" then objectLiteral d
  else unexpected

def primary : ParseM (Expr Span) := do
  let t ← peek
  match t.kind with
  | .identifier =>
    discard advance
    return .ident ⟨t.value, t.span⟩
  | .number => return .literal (← numberLiteral)
  | .string => return .literal (← stringLiteral)
  | .boolean =>
    discard advance
    return .literal ⟨.boolean (t.value = "true"), t.value, t.span⟩
  | .null =>
    discard advance
    return .literal ⟨.null, t.value, t.span⟩
  | .templateString => templateLiteral
  | .punctuation => markPrimary d
  | .keyword => keywordPrimary d
  | .operator | .comment | .eof | .unknown => unexpected

/-! ## Accesses and calls -/

/-- Arguments from behind the opening parenthesis to the closing one. -/
def arguments : ParseM (List (Expr Span)) := do
  let list ← if ← isMarkNext ")" then pure [] else collect (commaItem d.assignment)
  require .argumentsEnd
  return list

/-- The arguments of `new`, which may be left out. -/
def optionalArguments : ParseM (List (Expr Span)) := do
  if ← acceptMark "(" then arguments d else pure []

/-- One access to a member of `object`, which starts at `start`, if one follows. -/
def memberAccess? (start : Span) (object : Expr Span) : ParseM (Option (Expr Span)) := do
  if ← acceptMark "[" then
    let property ← d.assignment
    require .computedMemberEnd
    return some (.member object (.expr property) true (← spanFrom start))
  else if ← acceptMark "." then
    let property ← memberName
    return some (.member object (.ident property) false (← spanFrom start))
  else
    return none

/-- One more call, access or `new` after `e`, which starts at `start`, if one follows. -/
def chainLink? (start : Span) (e : Expr Span) : ParseM (Option (Expr Span)) := do
  if ← acceptMark "(" then
    let list ← arguments d
    return some (.call e list (← spanFrom start))
  else
    match ← memberAccess? d start e with
    | some access => return some access
    | none =>
      if ← acceptKeyword "new" then
        let list ← optionalArguments d
        return some (.new e list (← spanFrom start))
      else
        return none

/-- A primary with the calls and accesses after it. -/
def chain : ParseM (Expr Span) := do
  let start := (← peek).span
  let e ← primary d
  iterate (chainLink? d start) e

/-- `new`, its callee and its arguments. The first parenthesis after the callee opens them. -/
def construction : ParseM (Expr Span) := do
  let start := (← peek).span
  discard advance
  let calleeStart := (← peek).span
  let callee ← primary d
  let callee ← iterate (memberAccess? d calleeStart) callee
  let list ← optionalArguments d
  return .new callee list (← spanFrom start)

/-! ## Operators with one operand -/

/-- Fails if `e` can be neither counted up nor down. -/
def requireUpdateTarget (e : Expr Span) : ParseM Unit := do
  unless e.isUpdateTarget do throw (Fault.invalidUpdateTarget.report e.span.start)

def update : ParseM (Expr Span) := do
  let start := (← peek).span
  match ← acceptOneOf .operator UpdateOp.symbol UpdateOp.all with
  | some op =>
    let argument ← d.unary
    requireUpdateTarget argument
    return .update op true argument (← spanFrom start)
  | none =>
    let e ← chain d
    match ← nextOneOf .operator UpdateOp.symbol UpdateOp.all with
    | some op =>
      requireUpdateTarget e
      discard advance
      return .update op false e (← spanFrom start)
    | none => return e

/-- Reads a unary operator, if one follows. -/
def acceptUnaryOp : ParseM (Option UnaryOp) := do
  match ← acceptOneOf .operator UnaryOp.symbol UnaryOp.marks with
  | some op => return some op
  | none => acceptOneOf .keyword UnaryOp.symbol UnaryOp.words

def unary : ParseM (Expr Span) := do
  let start := (← peek).span
  if ← acceptKeyword "await" then
    let argument ← d.unary
    return .await argument (← spanFrom start)
  else
    match ← acceptUnaryOp with
    | some op =>
      let argument ← d.unary
      return .unary op argument (← spanFrom start)
    | none => update d

/-! ## Operators with two operands -/

/-- Operands of one level with operators between them, grouped to the left. -/
def leftAssociative {α : Type} (operator : ParseM (Option α))
    (build : α → Expr Span → Expr Span → Span → Expr Span) (operand : ParseM (Expr Span)) :
    ParseM (Expr Span) := do
  let start := (← peek).span
  let first ← operand
  iterate (fun left => do
    match ← operator with
    | some op =>
      let right ← operand
      return some (build op left right (← spanFrom start))
    | none => return none) first

/-- One level of binary operators. -/
def binaryLevel (ops : List BinaryOp) (operand : ParseM (Expr Span)) : ParseM (Expr Span) :=
  leftAssociative (acceptOneOf .operator BinaryOp.symbol ops) Expr.binary operand

/-- The level of a logical operator. -/
def logicalLevel (op : LogicalOp) (operand : ParseM (Expr Span)) : ParseM (Expr Span) :=
  leftAssociative (acceptOneOf .operator LogicalOp.symbol [op]) Expr.logical operand

def multiplicative : ParseM (Expr Span) := binaryLevel BinaryOp.multiplicative (unary d)

def additive : ParseM (Expr Span) := binaryLevel BinaryOp.additive (multiplicative d)

def comparison : ParseM (Expr Span) := binaryLevel BinaryOp.comparison (additive d)

def equality : ParseM (Expr Span) := binaryLevel BinaryOp.equality (comparison d)

def logicalAnd : ParseM (Expr Span) := logicalLevel .and (equality d)

def logicalOr : ParseM (Expr Span) := logicalLevel .or (logicalAnd d)

/-! ## Conditionals and assignments -/

def conditional : ParseM (Expr Span) := do
  let start := (← peek).span
  let test ← logicalOr d
  if ← acceptOperator "?" then
    let consequent ← d.assignment
    require .conditionalColon
    let alternate ← d.assignment
    return .conditional test consequent alternate (← spanFrom start)
  else
    return test

/-- Reads an expression as a pattern, or fails where it is none. -/
def target (e : Expr Span) : ParseM (Pattern Span) :=
  match e.toPattern with
  | .ok p => pure p
  | .error diagnostic => throw diagnostic

def assignment : ParseM (Expr Span) := do
  let start := (← peek).span
  let left ← conditional d
  match ← acceptOneOf .operator AssignmentOp.symbol AssignmentOp.all with
  | some op =>
    let left ← target left
    let right ← d.assignment
    return .assign op left right (← spanFrom start)
  | none => return left

end Parse

end JsSyntax
