/-! # Operators

The operators of expressions with the symbols they are written by.
-/

set_option autoImplicit false

namespace JsSyntax

inductive UnaryOp where
  | not
  | bitNot
  | plus
  | minus
  | typeof
  | void
  | delete
deriving DecidableEq, Repr

namespace UnaryOp

def symbol : UnaryOp → String
  | .not => "!"
  | .bitNot => "~"
  | .plus => "+"
  | .minus => "-"
  | .typeof => "typeof"
  | .void => "void"
  | .delete => "delete"

/-- The unary operators that are written as marks. -/
def marks : List UnaryOp := [.not, .bitNot, .plus, .minus]

/-- The unary operators that are written as words. -/
def words : List UnaryOp := [.typeof, .void, .delete]

end UnaryOp

inductive UpdateOp where
  | increment
  | decrement
deriving DecidableEq, Repr

namespace UpdateOp

def symbol : UpdateOp → String
  | .increment => "++"
  | .decrement => "--"

def all : List UpdateOp := [.increment, .decrement]

end UpdateOp

inductive BinaryOp where
  | add
  | sub
  | mul
  | div
  | mod
  | eq
  | notEq
  | strictEq
  | strictNotEq
  | lt
  | ltEq
  | gt
  | gtEq
deriving DecidableEq, Repr

namespace BinaryOp

def symbol : BinaryOp → String
  | .add => "+"
  | .sub => "-"
  | .mul => "*"
  | .div => "/"
  | .mod => "%"
  | .eq => "=="
  | .notEq => "!="
  | .strictEq => "==="
  | .strictNotEq => "!=="
  | .lt => "<"
  | .ltEq => "<="
  | .gt => ">"
  | .gtEq => ">="

/-! The four levels, from the loosest to the tightest. -/

def equality : List BinaryOp := [.eq, .strictEq, .notEq, .strictNotEq]

def comparison : List BinaryOp := [.lt, .gt, .ltEq, .gtEq]

def additive : List BinaryOp := [.add, .sub]

def multiplicative : List BinaryOp := [.mul, .div, .mod]

end BinaryOp

inductive LogicalOp where
  | and
  | or
deriving DecidableEq, Repr

def LogicalOp.symbol : LogicalOp → String
  | .and => "&&"
  | .or => "||"

inductive AssignmentOp where
  | assign
  | add
  | sub
  | mul
  | div
  | mod
  | exp
  | shiftLeft
  | shiftRight
  | shiftRightUnsigned
  | bitAnd
  | bitOr
  | bitXor
deriving DecidableEq, Repr

namespace AssignmentOp

def symbol : AssignmentOp → String
  | .assign => "="
  | .add => "+="
  | .sub => "-="
  | .mul => "*="
  | .div => "/="
  | .mod => "%="
  | .exp => "**="
  | .shiftLeft => "<<="
  | .shiftRight => ">>="
  | .shiftRightUnsigned => ">>>="
  | .bitAnd => "&="
  | .bitOr => "|="
  | .bitXor => "^="

def all : List AssignmentOp :=
  [.assign, .add, .sub, .mul, .div, .mod, .exp, .shiftLeft, .shiftRight, .shiftRightUnsigned,
   .bitAnd, .bitOr, .bitXor]

end AssignmentOp

/-! ## Kinds of declarations and members -/

inductive VariableKind where
  | var
  | let
  | const
deriving DecidableEq, Repr

namespace VariableKind

def keyword : VariableKind → String
  | .var => "var"
  | .let => "let"
  | .const => "const"

def all : List VariableKind := [.var, .let, .const]

end VariableKind

inductive MethodKind where
  | constructor
  | method
  | get
  | set
deriving DecidableEq, Repr

def MethodKind.name : MethodKind → String
  | .constructor => "constructor"
  | .method => "method"
  | .get => "get"
  | .set => "set"

inductive PropertyKind where
  | init
  | get
  | set
deriving DecidableEq, Repr

def PropertyKind.name : PropertyKind → String
  | .init => "init"
  | .get => "get"
  | .set => "set"

end JsSyntax
