import JsSyntax.Ast.Operator
import JsSyntax.Decimal.Double
import JsSyntax.Diagnostic

/-! # Syntax trees

The nodes of a parsed program. Every node carries one annotation of a type `σ`: the parser puts
the node's span there, and a tree annotated by `Unit` is the tree without its layout.

The flags `computed`, `shorthand` and `method` restate what the shape of a key or a value says.
-/

set_option autoImplicit false

namespace JsSyntax

/-! ## Leaves -/

structure Ident (σ : Type) where
  name : String
  span : σ
deriving DecidableEq, Repr

inductive LiteralValue where
  | null
  | boolean (value : Bool)
  | number (value : Double)
  | string (value : String)
deriving DecidableEq, Repr

/-- A literal with its value and the lexeme it was written as. -/
structure Literal (σ : Type) where
  value : LiteralValue
  raw : String
  span : σ
deriving DecidableEq, Repr

/-- A piece of a template: its text, and the lexeme it was written as. -/
structure TemplateElement (σ : Type) where
  cooked : String
  raw : String
  tail : Bool
  span : σ
deriving DecidableEq, Repr

/-! ## Nodes -/

mutual

inductive Expr (σ : Type) where
  | literal (value : Literal σ)
  /-- The elements of an array; `none` is a hole. -/
  | array (elements : List (Option (Expr σ))) (span : σ)
  | object (properties : List (Property σ)) (span : σ)
  | function (value : Func σ)
  | template (quasis : List (TemplateElement σ)) (expressions : List (Expr σ)) (span : σ)
  | ident (id : Ident σ)
  | this (span : σ)
  | super (span : σ)
  | unary (op : UnaryOp) (argument : Expr σ) (span : σ)
  | binary (op : BinaryOp) (left right : Expr σ) (span : σ)
  | logical (op : LogicalOp) (left right : Expr σ) (span : σ)
  | conditional (test consequent alternate : Expr σ) (span : σ)
  | assign (op : AssignmentOp) (left : Pattern σ) (right : Expr σ) (span : σ)
  | update (op : UpdateOp) (before : Bool) (argument : Expr σ) (span : σ)
  | await (argument : Expr σ) (span : σ)
  | member (object : Expr σ) (property : MemberProperty σ) (computed : Bool) (span : σ)
  | call (callee : Expr σ) (arguments : List (Expr σ)) (span : σ)
  | new (callee : Expr σ) (arguments : List (Expr σ)) (span : σ)

/-- What follows the object in a member access: a name after a point, or an expression in
brackets. -/
inductive MemberProperty (σ : Type) where
  | ident (id : Ident σ)
  | expr (value : Expr σ)

/-- The key of a member of an object or a class. -/
inductive PropertyKey (σ : Type) where
  | ident (id : Ident σ)
  | literal (value : Literal σ)
  | computed (value : Expr σ)

structure Property (σ : Type) where
  key : PropertyKey σ
  value : Expr σ
  kind : PropertyKind
  computed : Bool
  shorthand : Bool
  method : Bool
  span : σ

/-- The left side of an assignment. -/
inductive Pattern (σ : Type) where
  | ident (id : Ident σ)
  | member (object : Expr σ) (property : MemberProperty σ) (computed : Bool) (span : σ)
  | array (elements : List (Option (Pattern σ))) (span : σ)
  | object (properties : List (PatternProperty σ)) (span : σ)

structure PatternProperty (σ : Type) where
  key : PropertyKey σ
  value : Pattern σ
  computed : Bool
  shorthand : Bool
  span : σ

/-- A function, declared or not, or the function of a method. -/
structure Func (σ : Type) where
  id : Option (Ident σ)
  params : List (Ident σ)
  body : Block σ
  generator : Bool
  async : Bool
  span : σ

structure Block (σ : Type) where
  body : List (Statement σ)
  span : σ

inductive Statement (σ : Type) where
  | vars (declaration : VariableDeclaration σ)
  | function (declaration : Func σ)
  | classDeclaration (declaration : Class σ)
  | expression (value : Expr σ) (span : σ)
  | block (value : Block σ)
  | ifElse (test : Expr σ) (consequent : Statement σ) (alternate : Option (Statement σ))
      (span : σ)
  | forLoop (init : Option (ForInit σ)) (test update : Option (Expr σ)) (body : Statement σ)
      (span : σ)
  | whileLoop (test : Expr σ) (body : Statement σ) (span : σ)
  | ret (argument : Option (Expr σ)) (span : σ)
  | empty (span : σ)

structure VariableDeclaration (σ : Type) where
  kind : VariableKind
  declarations : List (VariableDeclarator σ)
  span : σ

structure VariableDeclarator (σ : Type) where
  id : Ident σ
  init : Option (Expr σ)
  span : σ

inductive ForInit (σ : Type) where
  | vars (declaration : VariableDeclaration σ)
  | expr (value : Expr σ)

structure Class (σ : Type) where
  id : Ident σ
  superClass : Option (Expr σ)
  body : ClassBody σ
  span : σ

structure ClassBody (σ : Type) where
  body : List (MethodDefinition σ)
  span : σ

structure MethodDefinition (σ : Type) where
  key : PropertyKey σ
  value : Func σ
  kind : MethodKind
  computed : Bool
  static : Bool
  span : σ

end

/-! ## Programs -/

/-- A parsed source. The statements that could not be parsed are left out of the body, each with
one error. -/
structure Program where
  body : List (Statement Span)
  comments : List Token
  errors : List Diagnostic
  span : Span

def Program.hasErrors (p : Program) : Bool := !p.errors.isEmpty

/-! ## Annotations and names -/

variable {σ : Type}

def Expr.span : Expr σ → σ
  | .literal value => value.span
  | .function value => value.span
  | .ident id => id.span
  | .array _ s | .object _ s | .template _ _ s | .this s | .super s | .unary _ _ s
  | .binary _ _ _ s | .logical _ _ _ s | .conditional _ _ _ s | .assign _ _ _ s
  | .update _ _ _ s | .await _ s | .member _ _ _ s | .call _ _ s | .new _ _ s => s

def Pattern.span : Pattern σ → σ
  | .ident id => id.span
  | .member _ _ _ s | .array _ s | .object _ s => s

def Statement.span : Statement σ → σ
  | .vars declaration => declaration.span
  | .function declaration => declaration.span
  | .classDeclaration declaration => declaration.span
  | .block value => value.span
  | .expression _ s | .ifElse _ _ _ s | .forLoop _ _ _ _ s | .whileLoop _ _ s | .ret _ s
  | .empty s => s

/-- The name that a key gives to its member, unless it is computed. -/
def PropertyKey.name? : PropertyKey σ → Option String
  | .ident id => some id.name
  | .literal ⟨.string value, _, _⟩ => some value
  | .literal value => some value.raw
  | .computed _ => none

end JsSyntax
