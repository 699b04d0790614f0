import JsSyntax.Text.CharTable

/-! # Blank characters

The characters of Unicode's `White_Space` property. They separate tokens and belong to none.
-/

set_option autoImplicit false

namespace JsSyntax

def blankTable : CharTable :=
  [(0x09, 0x0D), (0x20, 0x20), (0x85, 0x85), (0xA0, 0xA0), (0x1680, 0x1680), (0x2000, 0x200A),
   (0x2028, 0x2029), (0x202F, 0x202F), (0x205F, 0x205F), (0x3000, 0x3000)]

theorem blankTable_sorted : blankTable.sorted := by decide +kernel

def isBlank (c : Char) : Bool := blankTable.holds c.toNat

theorem isBlank_of_isWhitespace {c : Char} (h : c.isWhitespace) : isBlank c := by
  simp only [Char.isWhitespace, Bool.or_eq_true, decide_eq_true_eq] at h
  rcases h with ((rfl | rfl) | rfl) | rfl <;> decide

end JsSyntax
