import JsSyntax.Parse.Loop

/-! # Nested parsing

Statements and expressions nest. The routines of one nesting level get those of the next level as
a value of `Deeper`, so that none of them calls itself, and the number of levels is the bound on
nesting.
-/

set_option autoImplicit false

namespace JsSyntax

namespace Parse

/-- The routines by which syntax nests. -/
structure Deeper where
  statement : ParseM (Statement Span)
  /-- An expression of the loosest level. -/
  assignment : ParseM (Expr Span)
  /-- The operand of an operator before it. -/
  unary : ParseM (Expr Span)
  /-- A `new` that starts an expression. -/
  construction : ParseM (Expr Span)

/-- The level at which nothing may be parsed any more. -/
def Deeper.exhausted : Deeper where
  statement := fail .nestingTooDeep
  assignment := fail .nestingTooDeep
  unary := fail .nestingTooDeep
  construction := fail .nestingTooDeep

end Parse

end JsSyntax
