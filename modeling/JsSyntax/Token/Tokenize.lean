import JsSyntax.Source.Cursor
import JsSyntax.Text.Blank
import JsSyntax.Token.Lexeme

/-! # Token lists

`tokenize` reads a source from its first character to its last. Blanks between tokens are
dropped, all other text is covered by the tokens, and one token of kind `eof` closes the list.
-/

set_option autoImplicit false

namespace JsSyntax

/-- Passes the blanks ahead and the token after them, or gives the closing token at the end. -/
def Cursor.nextToken (c : Cursor) : Token × Cursor :=
  let start := c.advanceWhile isBlank
  match start.rest with
  | [] => (.eof start.position, start)
  | text =>
    let (kind, lexeme) := Lexeme.scan text
    let stop := start.advanceBy lexeme.length
    (⟨kind, String.ofList lexeme, ⟨start.position, stop.position⟩⟩, stop)

/-- The tokens ahead of the cursor, at most `fuel` of them before the closing one. -/
def Cursor.tokens (c : Cursor) : Nat → List Token
  | 0 => [c.nextToken.1]
  | fuel + 1 =>
    let (token, next) := c.nextToken
    if token.kind = .eof then [token] else token :: next.tokens fuel

/-- The tokens of a source. A token covers at least one character, so there are at most as many
as characters. -/
def tokenize (source : String) : List Token :=
  (Cursor.ofString source).tokens source.length

end JsSyntax
