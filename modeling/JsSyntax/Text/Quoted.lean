import JsSyntax.Text.Extending
import JsSyntax.Text.Ignorable
import JsSyntax.Text.Unprintable

/-! # Quoted text

Text between double quotes, with what could not be read back or seen written as an escape.
-/

set_option autoImplicit false

namespace JsSyntax

namespace Quoted

/-- A number in lower-case hexadecimal digits. -/
def hex (n : Nat) : List Char := Nat.toDigits 16 n

/-- A character inside double quotes. Apart from the characters with an escape of their own, only
what is unprintable, shows nothing or joins the character before it is escaped, by its code
point. -/
def char (c : Char) : List Char :=
  match c with
  | '\x00' => ['\\', '0']
  | '\t' => ['\\', 't']
  | '\n' => ['\\', 'n']
  | '\r' => ['\\', 'r']
  | '\x22' => ['\\', '\x22']
  | '\\' => ['\\', '\\']
  | c =>
    if isUnprintable c || isIgnorable c || isExtending c then
      ['\\', 'u', '\x7b'] ++ hex c.toNat ++ ['\x7d']
    else [c]

def text (s : String) : String :=
  String.ofList ('\x22' :: s.toList.flatMap char ++ ['\x22'])

end Quoted

end JsSyntax
