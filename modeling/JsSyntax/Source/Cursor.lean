import JsSyntax.Source.Position

/-! # A cursor over a source text

The cursor divides a text in two: what has been passed and what is still ahead. It carries the
position of the division, so that reading a position costs nothing.
-/

set_option autoImplicit false

namespace JsSyntax

structure Cursor where
  /-- The characters passed so far, the latest first. -/
  past : List Char
  /-- The characters ahead. -/
  rest : List Char
  position : Position
deriving DecidableEq, Repr

/-- What is left of `cs` after its first `n` bytes, or nothing when `n` falls inside a character
or beyond the end. -/
def dropBytes? : Nat → List Char → Option (List Char)
  | 0, cs => some cs
  | _ + 1, [] => none
  | n + 1, c :: cs => if c.utf8Size ≤ n + 1 then dropBytes? (n + 1 - c.utf8Size) cs else none

namespace Cursor

/-- The cursor before the first character of `source`. -/
def ofString (source : String) : Cursor := ⟨[], source.toList, .first⟩

def isAtEnd (c : Cursor) : Bool := c.rest.isEmpty

def peek? (c : Cursor) : Option Char := c.rest.head?

/-- The character after the one that `peek?` shows. -/
def peekNext? (c : Cursor) : Option Char := (c.rest.drop 1).head?

/-- Passes one character; at the end the cursor stays put. -/
def advance (c : Cursor) : Cursor :=
  match c.rest with
  | [] => c
  | ch :: rest => ⟨ch :: c.past, rest, c.position.advance ch⟩

/-- Passes `n` characters, or as many as there are. -/
def advanceBy (c : Cursor) : Nat → Cursor
  | 0 => c
  | n + 1 => c.advance.advanceBy n

/-- Passes the next character if it is `expected`, and says whether it was. -/
def eat (c : Cursor) (expected : Char) : Bool × Cursor :=
  if c.peek? = some expected then (true, c.advance) else (false, c)

/-- Passes the longest run of characters that satisfy `p`. -/
def advanceWhile (c : Cursor) (p : Char → Bool) : Cursor :=
  c.advanceBy (c.rest.takeWhile p).length

/-- The text from byte offset `start` up to the cursor; empty when `start` lies beyond the cursor
or inside a character. -/
def sliceFrom (c : Cursor) (start : Nat) : String :=
  String.ofList ((dropBytes? start c.past.reverse).getD [])

/-- The text ahead. -/
def restText (c : Cursor) : String := String.ofList c.rest

end Cursor

end JsSyntax
