/-! # Positions in a source text

A position is an offset in UTF-8 bytes with the line and the column it stands for. Lines and
columns count from 1, columns count characters, and only a line feed starts a line.
-/

set_option autoImplicit false

namespace JsSyntax

structure Position where
  offset : Nat
  line : Nat
  column : Nat
deriving DecidableEq, Repr

namespace Position

/-- The position of the first character. -/
def first : Position := ⟨0, 1, 1⟩

instance : Inhabited Position := ⟨first⟩

/-- The position after the character `c` at `p`. -/
def advance (p : Position) (c : Char) : Position :=
  if c = '\n' then ⟨p.offset + c.utf8Size, p.line + 1, 1⟩
  else ⟨p.offset + c.utf8Size, p.line, p.column + 1⟩

/-- The position after the text `cs` at `p`. -/
def advanceBy (p : Position) (cs : List Char) : Position :=
  cs.foldl advance p

@[simp] theorem advanceBy_nil (p : Position) : p.advanceBy [] = p := rfl

@[simp] theorem advanceBy_cons (p : Position) (c : Char) (cs : List Char) :
    p.advanceBy (c :: cs) = (p.advance c).advanceBy cs := rfl

@[simp] theorem advanceBy_append (p : Position) (xs ys : List Char) :
    p.advanceBy (xs ++ ys) = (p.advanceBy xs).advanceBy ys :=
  List.foldl_append

end Position

end JsSyntax
