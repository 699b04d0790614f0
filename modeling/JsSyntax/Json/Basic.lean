import JsSyntax.Decimal.Double

/-! # JSON values

Values as they are written: the fields of an object keep their order.
-/

set_option autoImplicit false

namespace JsSyntax

inductive Json where
  | null
  | bool (value : Bool)
  | nat (value : Nat)
  | number (value : Double)
  | str (value : String)
  | arr (items : List Json)
  | obj (fields : List (String × Json))

namespace Json

/-- A value that may be missing. -/
def ofOption {α : Type} (f : α → Json) : Option α → Json
  | none => .null
  | some a => f a

def ofList {α : Type} (f : α → Json) (items : List α) : Json := .arr (items.map f)

end Json

end JsSyntax
