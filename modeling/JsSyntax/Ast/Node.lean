import JsSyntax.Ast.Basic

/-! # Nodes

The nodes of a tree, of whatever kind, and the children of each in the order in which they are
written. A node that only wraps another one has that one as its child.
-/

set_option autoImplicit false

namespace JsSyntax

variable {σ : Type}

inductive Node (σ : Type) where
  | statement (value : Statement σ)
  | declaration (value : VariableDeclaration σ)
  | declarator (value : VariableDeclarator σ)
  | function (value : Func σ)
  | block (value : Block σ)
  | classDeclaration (value : Class σ)
  | classBody (value : ClassBody σ)
  | method (value : MethodDefinition σ)
  | property (value : Property σ)
  | patternProperty (value : PatternProperty σ)
  | expr (value : Expr σ)
  | pattern (value : Pattern σ)
  | ident (value : Ident σ)
  | literal (value : Literal σ)
  | quasi (value : TemplateElement σ)

def Node.span : Node σ → σ
  | .statement value => value.span
  | .declaration value => value.span
  | .declarator value => value.span
  | .function value => value.span
  | .block value => value.span
  | .classDeclaration value => value.span
  | .classBody value => value.span
  | .method value => value.span
  | .property value => value.span
  | .patternProperty value => value.span
  | .expr value => value.span
  | .pattern value => value.span
  | .ident value => value.span
  | .literal value => value.span
  | .quasi value => value.span

/-! ## Children -/

def MemberProperty.node : MemberProperty σ → Node σ
  | .ident id => .ident id
  | .expr value => .expr value

def PropertyKey.node : PropertyKey σ → Node σ
  | .ident id => .ident id
  | .literal value => .literal value
  | .computed value => .expr value

def ForInit.node : ForInit σ → Node σ
  | .vars declaration => .declaration declaration
  | .expr value => .expr value

/-- The function of a method or an accessor is no expression: it is written without `function`. -/
def Property.valueNode (p : Property σ) : Node σ :=
  if p.kind = .init ∧ p.method = false then .expr p.value
  else
    match p.value with
    | .function value => .function value
    | value => .expr value

/-- The pieces of a template with the expressions between them. -/
def TemplateElement.alternate : List (TemplateElement σ) → List (Expr σ) → List (Node σ)
  | [], expressions => expressions.map .expr
  | quasi :: quasis, [] => .quasi quasi :: quasis.map .quasi
  | quasi :: quasis, e :: es => .quasi quasi :: .expr e :: alternate quasis es

def Expr.children : Expr σ → List (Node σ)
  | .literal value => [.literal value]
  | .array elements _ => elements.filterMap (Option.map .expr)
  | .object properties _ => properties.map .property
  | .function value => [.function value]
  | .template quasis expressions _ => TemplateElement.alternate quasis expressions
  | .ident id => [.ident id]
  | .this _ => []
  | .super _ => []
  | .unary _ argument _ => [.expr argument]
  | .binary _ left right _ => [.expr left, .expr right]
  | .logical _ left right _ => [.expr left, .expr right]
  | .conditional test consequent alternate _ => [.expr test, .expr consequent, .expr alternate]
  | .assign _ left right _ => [.pattern left, .expr right]
  | .update _ _ argument _ => [.expr argument]
  | .await argument _ => [.expr argument]
  | .member base property _ _ => [.expr base, property.node]
  | .call callee arguments _ => .expr callee :: arguments.map .expr
  | .new callee arguments _ => .expr callee :: arguments.map .expr

def Pattern.children : Pattern σ → List (Node σ)
  | .ident id => [.ident id]
  | .member base property _ _ => [.expr base, property.node]
  | .array elements _ => elements.filterMap (Option.map .pattern)
  | .object properties _ => properties.map .patternProperty

def Statement.children : Statement σ → List (Node σ)
  | .vars declaration => [.declaration declaration]
  | .function declaration => [.function declaration]
  | .classDeclaration declaration => [.classDeclaration declaration]
  | .expression value _ => [.expr value]
  | .block value => [.block value]
  | .ifElse test consequent alternate _ =>
    .expr test :: .statement consequent :: alternate.toList.map .statement
  | .forLoop init test update body _ =>
    init.toList.map ForInit.node ++ test.toList.map .expr ++ update.toList.map .expr ++
      [.statement body]
  | .whileLoop test body _ => [.expr test, .statement body]
  | .ret argument _ => argument.toList.map .expr
  | .empty _ => []

/-- The class that a class extends. -/
def Node.heritage : Node σ → List (Node σ)
  | .classDeclaration value => value.superClass.toList.map .expr
  | _ => []

def Node.children : Node σ → List (Node σ)
  | .statement value => value.children
  | .declaration value => value.declarations.map .declarator
  | .declarator value => .ident value.id :: value.init.toList.map .expr
  | .function value => value.id.toList.map .ident ++ value.params.map .ident ++ [.block value.body]
  | .block value => value.body.map .statement
  | .classDeclaration value =>
    .ident value.id :: (Node.classDeclaration value).heritage ++ [.classBody value.body]
  | .classBody value => value.body.map .method
  | .method value => [value.key.node, .function value.value]
  | .property value => [value.key.node, value.valueNode]
  | .patternProperty value => [value.key.node, .pattern value.value]
  | .expr value => value.children
  | .pattern value => value.children
  | .ident _ => []
  | .literal _ => []
  | .quasi _ => []

/-- Is the node a property that is written as a name alone, which is its key and its value? -/
def Node.isShorthand : Node σ → Bool
  | .property value => value.shorthand
  | .patternProperty value => value.shorthand
  | _ => false

end JsSyntax
