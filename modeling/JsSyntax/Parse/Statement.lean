import JsSyntax.Parse.Expression

/-! # Statements

A statement is known by its first token, or by its first two when the first is `async`.
-/

set_option autoImplicit false

namespace JsSyntax

namespace Parse

variable (d : Deeper)

/-! ## Declarations -/

def variableDeclarator : ParseM (VariableDeclarator Span) := do
  let id ← identifier .variable
  let init ← if ← acceptOperator "=" then some <$> d.assignment else pure none
  return ⟨id, init, ← spanFrom id.span⟩

/-- The declarators after the keyword, which starts at `start`. -/
def variableList (kind : VariableKind) (start : Span) : ParseM (VariableDeclaration Span) := do
  let declarations ← collect (commaItem (variableDeclarator d))
  return ⟨kind, declarations, ← spanFrom start⟩

/-- The rest of a declaration whose keyword has been read. -/
def variableDeclaration (kind : VariableKind) (start : Span) :
    ParseM (VariableDeclaration Span) := do
  let declaration ← variableList d kind start
  require .variableEnd
  return { declaration with span := ← spanFrom start }

/-- Methods in braces, with any number of semicolons between them. -/
def classBody : ParseM (ClassBody Span) := do
  let start := (← peek).span
  require .classStart
  let members ← collect (upTo "\x7d" do
    if ← acceptMark ";" then return .more none else return .more (some (← methodDefinition d)))
  require .classEnd
  return ⟨members.filterMap id, ← spanFrom start⟩

def classDeclaration : ParseM (Class Span) := do
  let start := (← peek).span
  discard advance
  let id ← identifier .className
  let superClass ← if ← acceptWord "extends" then some <$> chain d else pure none
  let body ← classBody d
  return ⟨id, superClass, body, ← spanFrom start⟩

/-! ## Control flow -/

def ifStatement : ParseM (Statement Span) := do
  let start := (← peek).span
  discard advance
  require .ifStart
  let test ← d.assignment
  require .ifEnd
  let consequent ← d.statement
  let alternate ← if ← acceptKeyword "else" then some <$> d.statement else pure none
  return .ifElse test consequent alternate (← spanFrom start)

/-- The first clause of a loop header, which may be empty. -/
def forInit : ParseM (Option (ForInit Span)) := do
  if ← isMarkNext ";" then
    return none
  else
    let start := (← peek).span
    match ← acceptOneOf .keyword VariableKind.keyword VariableKind.all with
    | some kind => return some (.vars (← variableList d kind start))
    | none => return some (.expr (← d.assignment))

/-- An expression that may be left out before `mark`. -/
def optionalBefore (mark : String) : ParseM (Option (Expr Span)) := do
  if ← isMarkNext mark then pure none else some <$> d.assignment

def forStatement : ParseM (Statement Span) := do
  let start := (← peek).span
  discard advance
  require .forStart
  let init ← forInit d
  require .forInitEnd
  let test ← optionalBefore d ";"
  require .forTestEnd
  let update ← optionalBefore d ")"
  require .forEnd
  let body ← d.statement
  return .forLoop init test update body (← spanFrom start)

def whileStatement : ParseM (Statement Span) := do
  let start := (← peek).span
  discard advance
  require .whileStart
  let test ← d.assignment
  require .whileEnd
  let body ← d.statement
  return .whileLoop test body (← spanFrom start)

def returnStatement : ParseM (Statement Span) := do
  let start := (← peek).span
  discard advance
  let argument ← optionalBefore d ";"
  require .returnEnd
  return .ret argument (← spanFrom start)

def expressionStatement : ParseM (Statement Span) := do
  let start := (← peek).span
  let e ← d.assignment
  require .statementEnd
  return .expression e (← spanFrom start)

/-! ## Any statement -/

/-- A statement that starts with a keyword other than `var`, `let` and `const`. -/
def keywordStatement : ParseM (Statement Span) := do
  let t ← peek
  if ← isFunctionNext then return .function (← function d)
  else if t.value = "class" then return .classDeclaration (← classDeclaration d)
  else if t.value = "if" then ifStatement d
  else if t.value = "for" then forStatement d
  else if t.value = "while" then whileStatement d
  else if t.value = "return" then returnStatement d
  else expressionStatement d

def statement : ParseM (Statement Span) := do
  let t ← peek
  emit (.statement t)
  match ← acceptOneOf .keyword VariableKind.keyword VariableKind.all with
  | some kind => return .vars (← variableDeclaration d kind t.span)
  | none =>
    if t.kind = .keyword then keywordStatement d
    else if t.isPunctuation "\x7b" then return .block (← block d)
    else if t.isPunctuation ";" then
      discard advance
      return .empty t.span
    else expressionStatement d

/-! ## Levels -/

/-- The routines with `limit` levels of nesting left. -/
def level : Nat → Deeper
  | 0 => .exhausted
  | limit + 1 =>
    let d := level limit
    ⟨statement d, assignment d, unary d, construction d⟩

end Parse

end JsSyntax
