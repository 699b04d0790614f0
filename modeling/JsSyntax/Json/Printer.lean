import JsSyntax.Json.Basic
import JsSyntax.Decimal.Layout

/-! # JSON text

A value on one line without blanks, or spread over lines with an indentation of two blanks.
-/

set_option autoImplicit false

namespace JsSyntax

namespace Json

/-! ## Leaves -/

/-- Numbers from `1e-5` up to `1e16` are written plainly, exponents with their sign, and an
infinite number as no number at all. -/
def numberLayout : NumberLayout := ⟨5, 16, "+", .toEven, "null"⟩

/-- A code point below 256 in two hexadecimal digits. -/
def hexPair (n : Nat) : List Char :=
  [Nat.digitChar (n / 16 % 16), Nat.digitChar (n % 16)]

/-- A character inside a JSON string. -/
def escapeChar (c : Char) : List Char :=
  match c with
  | '\x22' => ['\\', '\x22']
  | '\\' => ['\\', '\\']
  | '\x08' => ['\\', 'b']
  | '\t' => ['\\', 't']
  | '\n' => ['\\', 'n']
  | '\x0c' => ['\\', 'f']
  | '\r' => ['\\', 'r']
  | c => if c.toNat < 0x20 then ['\\', 'u', '0', '0'] ++ hexPair c.toNat else [c]

/-- A JSON string with its quotes. -/
def quote (s : String) : String :=
  String.ofList ('\x22' :: s.toList.flatMap escapeChar ++ ['\x22'])

/-! ## On one line -/

mutual

/-- Writes a value behind `out`. -/
def compactOnto (out : String) : Json → String
  | .null => out ++ "null"
  | .bool true => out ++ "true"
  | .bool false => out ++ "false"
  | .nat n => out ++ toString n
  | .number d => out ++ numberLayout.write d
  | .str s => out ++ quote s
  | .arr [] => out ++ "[]"
  | .arr (item :: items) => compactItemsOnto (compactOnto (out ++ "[") item) items ++ "]"
  | .obj [] => out ++ "\x7b\x7d"
  | .obj ((key, value) :: fields) =>
    compactFieldsOnto (compactOnto (out ++ "\x7b" ++ quote key ++ ":") value) fields ++ "\x7d"

def compactItemsOnto (out : String) : List Json → String
  | [] => out
  | item :: items => compactItemsOnto (compactOnto (out ++ ",") item) items

def compactFieldsOnto (out : String) : List (String × Json) → String
  | [] => out
  | (key, value) :: fields =>
    compactFieldsOnto (compactOnto (out ++ "," ++ quote key ++ ":") value) fields

end

def compact (j : Json) : String := compactOnto "" j

/-! ## On several lines -/

/-- A line break and the indentation of the line after it. -/
def newline (depth : Nat) : String := "\n".pushn ' ' (2 * depth)

mutual

/-- Writes a value behind `out`, on a line indented by `depth`. -/
def prettyOnto (depth : Nat) (out : String) : Json → String
  | .null => out ++ "null"
  | .bool true => out ++ "true"
  | .bool false => out ++ "false"
  | .nat n => out ++ toString n
  | .number d => out ++ numberLayout.write d
  | .str s => out ++ quote s
  | .arr [] => out ++ "[]"
  | .arr (item :: items) =>
    prettyItemsOnto (depth + 1)
        (prettyOnto (depth + 1) (out ++ "[" ++ newline (depth + 1)) item) items
      ++ newline depth ++ "]"
  | .obj [] => out ++ "\x7b\x7d"
  | .obj ((key, value) :: fields) =>
    prettyFieldsOnto (depth + 1)
        (prettyOnto (depth + 1) (out ++ "\x7b" ++ newline (depth + 1) ++ quote key ++ ": ") value)
        fields
      ++ newline depth ++ "\x7d"

def prettyItemsOnto (depth : Nat) (out : String) : List Json → String
  | [] => out
  | item :: items =>
    prettyItemsOnto depth (prettyOnto depth (out ++ "," ++ newline depth) item) items

def prettyFieldsOnto (depth : Nat) (out : String) : List (String × Json) → String
  | [] => out
  | (key, value) :: fields =>
    prettyFieldsOnto depth
      (prettyOnto depth (out ++ "," ++ newline depth ++ quote key ++ ": ") value) fields

end

def pretty (j : Json) : String := prettyOnto 0 "" j

end Json

end JsSyntax
