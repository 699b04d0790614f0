import JsSyntax.Dump.Basic

/-! # Written dumps

A dump on one line, or with every part on a line of its own and an indentation of four blanks.
-/

set_option autoImplicit false

namespace JsSyntax

namespace Dump

/-! ## On one line -/

mutual

/-- Writes a dump behind `out`. -/
def compactOnto (out : String) : Dump → String
  | .atom text => out ++ text
  | .list [] => out ++ "[]"
  | .list (item :: items) => compactItemsOnto (compactOnto (out ++ "[") item) items ++ "]"
  | .tuple name [] => out ++ name
  | .tuple name (item :: items) =>
    compactItemsOnto (compactOnto (out ++ name ++ "(") item) items ++ ")"
  | .record name [] => out ++ name
  | .record name ((key, value) :: fields) =>
    compactFieldsOnto (compactOnto (out ++ name ++ " \x7b " ++ key ++ ": ") value) fields
      ++ " \x7d"

def compactItemsOnto (out : String) : List Dump → String
  | [] => out
  | item :: items => compactItemsOnto (compactOnto (out ++ ", ") item) items

def compactFieldsOnto (out : String) : List (String × Dump) → String
  | [] => out
  | (key, value) :: fields =>
    compactFieldsOnto (compactOnto (out ++ ", " ++ key ++ ": ") value) fields

end

def compact (d : Dump) : String := compactOnto "" d

/-! ## On several lines -/

/-- A line break and the indentation of the line after it. -/
def newline (depth : Nat) : String := "\n".pushn ' ' (4 * depth)

mutual

/-- Writes a dump behind `out`, on a line indented by `depth`. -/
def prettyOnto (depth : Nat) (out : String) : Dump → String
  | .atom text => out ++ text
  | .list [] => out ++ "[]"
  | .list (item :: items) =>
    prettyItemsOnto (depth + 1)
        (prettyOnto (depth + 1) (out ++ "[" ++ newline (depth + 1)) item ++ ",") items
      ++ newline depth ++ "]"
  | .tuple name [] => out ++ name
  | .tuple name (item :: items) =>
    prettyItemsOnto (depth + 1)
        (prettyOnto (depth + 1) (out ++ name ++ "(" ++ newline (depth + 1)) item ++ ",") items
      ++ newline depth ++ ")"
  | .record name [] => out ++ name
  | .record name ((key, value) :: fields) =>
    prettyFieldsOnto (depth + 1)
        (prettyOnto (depth + 1) (out ++ name ++ " \x7b" ++ newline (depth + 1) ++ key ++ ": ") value
          ++ ",") fields
      ++ newline depth ++ "\x7d"

/-- Every item ends with a comma. -/
def prettyItemsOnto (depth : Nat) (out : String) : List Dump → String
  | [] => out
  | item :: items =>
    prettyItemsOnto depth (prettyOnto depth (out ++ newline depth) item ++ ",") items

def prettyFieldsOnto (depth : Nat) (out : String) : List (String × Dump) → String
  | [] => out
  | (key, value) :: fields =>
    prettyFieldsOnto depth (prettyOnto depth (out ++ newline depth ++ key ++ ": ") value ++ ",")
      fields

end

def pretty (d : Dump) : String := prettyOnto 0 "" d

end Dump

end JsSyntax
