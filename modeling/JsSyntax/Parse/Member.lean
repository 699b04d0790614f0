import JsSyntax.Ast.Target
import JsSyntax.Parse.Function

/-! # Members of objects and classes

Keys, the words that modify a member, properties of object literals and methods of classes.
-/

set_option autoImplicit false

namespace JsSyntax

/-! ## Literals -/

/-- A delimited text without the opening delimiter, and without the closing one if it has it. -/
def literalBody (raw : String) : String :=
  match raw.toList with
  | [] => raw
  | delimiter :: body =>
    if body.getLast? = some delimiter then String.ofList body.dropLast else String.ofList body

namespace Parse

/-- A string literal, which is the next token. -/
def stringLiteral : ParseM (Literal Span) := do
  let t ← advance
  return ⟨.string (literalBody t.value), t.value, t.span⟩

/-- A number literal, which is the next token. A number that cannot be read is not passed. -/
def numberLiteral : ParseM (Literal Span) := do
  match Double.ofNumeral? (← peek).value with
  | none => fail .invalidNumber
  | some value =>
    let t ← advance
    return ⟨.number value, t.value, t.span⟩

/-! ## Keys -/

/-- A key, and whether it is computed. -/
def propertyKey (d : Deeper) : ParseM (PropertyKey Span × Bool) := do
  let t ← peek
  if t.isPunctuation "[" then
    discard advance
    let key ← d.assignment
    require .computedKeyEnd
    return (.computed key, true)
  else if isName t then
    discard advance
    return (.ident ⟨t.value, t.span⟩, false)
  else if t.kind = .string then
    return (.literal (← stringLiteral), false)
  else if t.kind = .number then
    return (.literal (← numberLiteral), false)
  else
    fail (.missingName .key)

/-- Reads a word that modifies a member. It is no modifier when the token after it shows that the
word is the name of the member itself. -/
def acceptModifier (word : String) : ParseM Bool := do
  let next ← peekSecond
  let isMember := next.kind = .eof || next.isOperator "="
    || (next.kind = .punctuation && ["(", ":", ",", "\x7d", ";"].contains next.value)
  if isMember then return false else acceptWord word

/-- A getter or a setter, by the word before its key. -/
def acceptAccessor : ParseM (Option Bool) := do
  if ← acceptModifier "get" then return some true
  else if ← acceptModifier "set" then return some false
  else return none

/-! ## Properties of objects -/

/-- Can the token stand for the value of a variable? -/
def isReference (t : Token) : Bool :=
  t.kind == .identifier || (t.kind == .keyword && globalNames.contains t.value)

/-- A property of an object literal: a key with its value, a method, an accessor, or the name of a
variable for both key and value. -/
def property (d : Deeper) : ParseM (Property Span) := do
  let start := (← peek).span
  let kind : PropertyKind := match ← acceptAccessor with
    | some true => .get
    | some false => .set
    | none => .init
  let async ← if kind = .init then acceptModifier "async" else pure false
  let generator ← if kind = .init then acceptOperator "*" else pure false
  let first ← peek
  let (key, computed) ← propertyKey d
  if kind ≠ .init || async || generator || (← isMarkNext "(") then
    let value ← methodFunction d async generator
    return ⟨key, .function value, kind, computed, false, kind = .init, ← spanFrom start⟩
  else if ← acceptMark ":" then
    let value ← d.assignment
    return ⟨key, value, kind, computed, false, false, ← spanFrom start⟩
  else
    match key with
    | .ident id =>
      if isReference first then
        return ⟨key, .ident id, kind, false, true, false, ← spanFrom start⟩
      else fail (.missingMark .propertyColon)
    | _ => fail (.missingMark .propertyColon)

/-! ## Methods of classes -/

/-- The kind of a class member from its accessor word, its modifiers and its key. -/
def methodKind {σ : Type} (accessor : Option Bool) (static computed : Bool)
    (key : PropertyKey σ) : MethodKind :=
  match accessor with
  | some true => .get
  | some false => .set
  | none =>
    if !static && !computed && key.name? = some "constructor" then .constructor else .method

def methodDefinition (d : Deeper) : ParseM (MethodDefinition Span) := do
  let start := (← peek).span
  let static ← acceptModifier "static"
  let async ← acceptModifier "async"
  let generator ← acceptOperator "*"
  let accessor ← if async || generator then pure none else acceptAccessor
  let (key, computed) ← propertyKey d
  let value ← methodFunction d async generator
  return ⟨key, value, methodKind accessor static computed key, computed, static,
    ← spanFrom start⟩

end Parse

end JsSyntax
