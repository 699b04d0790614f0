/-! # Dumps

A dump shows a value as it is built: by the name of its constructor and its arguments or fields.
-/

set_option autoImplicit false

namespace JsSyntax

inductive Dump where
  | atom (text : String)
  | list (items : List Dump)
  | tuple (name : String) (items : List Dump)
  | record (name : String) (fields : List (String × Dump))

namespace Dump

def ofBool (b : Bool) : Dump := .atom (if b then "true" else "false")

def ofNat (n : Nat) : Dump := .atom (toString n)

def ofOption {α : Type} (f : α → Dump) : Option α → Dump
  | none => .atom "None"
  | some a => .tuple "Some" [f a]

def ofList {α : Type} (f : α → Dump) (items : List α) : Dump := .list (items.map f)

end Dump

end JsSyntax
