import JsSyntax.Parse.Deeper

/-! # Blocks and functions

The parts that declarations, expressions and methods share: parameter lists, bodies and whole
functions.
-/

set_option autoImplicit false

namespace JsSyntax

namespace Parse

/-- A list of names in parentheses. -/
def parameters : ParseM (List (Ident Span)) := do
  require .parametersStart
  let params ← if ← isMarkNext ")" then pure [] else collect (commaItem (identifier .parameter))
  require .parametersEnd
  return params

/-- Statements in braces. -/
def block (d : Deeper) : ParseM (Block Span) := do
  let start := (← peek).span
  require .blockStart
  let body ← collect (upTo "\x7d" do return .more (← d.statement))
  require .blockEnd
  return ⟨body, ← spanFrom start⟩

/-- The parameters and the body of a method. -/
def methodFunction (d : Deeper) (async generator : Bool) : ParseM (Func Span) := do
  let start := (← peek).span
  let params ← parameters
  let body ← block d
  return ⟨none, params, body, generator, async, ← spanFrom start⟩

/-- Does a function start here, with or without `async`? -/
def isFunctionNext : ParseM Bool := do
  let t ← peek
  let next ← peekSecond
  return t.isKeyword "function" || (t.isKeyword "async" && next.isKeyword "function")

/-- A function from its first keyword on; `isFunctionNext` holds. -/
def function (d : Deeper) : ParseM (Func Span) := do
  let start := (← peek).span
  let async ← acceptKeyword "async"
  discard advance
  let generator ← acceptOperator "*"
  let id ← if (← peek).kind = .identifier then some <$> identifier .variable else pure none
  let params ← parameters
  let body ← block d
  return ⟨id, params, body, generator, async, ← spanFrom start⟩

end Parse

end JsSyntax
