import JsSyntax.Ast.Basic
import JsSyntax.Json.Basic

/-! # Outlines

The nodes of a tree in a flat list, every node before its children, each with its depth, its span
and what its children do not say about it. Bodies of functions and classes, and keys that are not
computed, have no entry of their own.

The functions put the entries of a node in front of a list that is already there.
-/

set_option autoImplicit false

namespace JsSyntax

structure OutlineEntry where
  depth : Nat
  /-- The type of the node, as in its JSON form. -/
  type : String
  span : Span
  info : Json

abbrev Outline := List OutlineEntry

/-- Names that are all there is to say, as JSON. -/
def Json.ofNames (ids : List (Ident Span)) : Json := .ofList (fun id => .str id.name) ids

def PropertyKey.nameJson (key : PropertyKey Span) : Json := .ofOption .str key.name?

mutual

def Expr.outline (depth : Nat) (after : Outline) : Expr Span → Outline
  | .literal value => ⟨depth, "Literal", value.span, .str value.raw⟩ :: after
  | .array elements s =>
    ⟨depth, "ArrayExpression", s, .nat elements.length⟩
      :: Expr.slotsOutline (depth + 1) after elements
  | .object properties s =>
    ⟨depth, "ObjectExpression", s, .nat properties.length⟩
      :: Property.allOutline (depth + 1) after properties
  | .function value => value.outline "FunctionExpression" depth after
  | .template quasis _ s =>
    ⟨depth, "TemplateLiteral", s, .str (String.join (quasis.map (·.cooked)))⟩ :: after
  | .ident id => ⟨depth, "Identifier", id.span, .str id.name⟩ :: after
  | .this s => ⟨depth, "ThisExpression", s, .null⟩ :: after
  | .super s => ⟨depth, "Super", s, .null⟩ :: after
  | .unary op argument s =>
    ⟨depth, "UnaryExpression", s, .str op.symbol⟩ :: argument.outline (depth + 1) after
  | .binary op left right s =>
    ⟨depth, "BinaryExpression", s, .str op.symbol⟩
      :: left.outline (depth + 1) (right.outline (depth + 1) after)
  | .logical op left right s =>
    ⟨depth, "LogicalExpression", s, .str op.symbol⟩
      :: left.outline (depth + 1) (right.outline (depth + 1) after)
  | .conditional test consequent alternate s =>
    ⟨depth, "ConditionalExpression", s, .null⟩
      :: test.outline (depth + 1)
        (consequent.outline (depth + 1) (alternate.outline (depth + 1) after))
  | .assign op left right s =>
    ⟨depth, "AssignmentExpression", s, .str op.symbol⟩
      :: left.outline (depth + 1) (right.outline (depth + 1) after)
  | .update op before argument s =>
    ⟨depth, "UpdateExpression", s, .arr [.str op.symbol, .bool before]⟩
      :: argument.outline (depth + 1) after
  | .await argument s =>
    ⟨depth, "AwaitExpression", s, .null⟩ :: argument.outline (depth + 1) after
  | .member object property computed s =>
    ⟨depth, "MemberExpression", s, .bool computed⟩
      :: object.outline (depth + 1) (property.outline (depth + 1) after)
  | .call callee arguments s =>
    ⟨depth, "CallExpression", s, .nat arguments.length⟩
      :: callee.outline (depth + 1) (Expr.allOutline (depth + 1) after arguments)
  | .new callee arguments s =>
    ⟨depth, "NewExpression", s, .nat arguments.length⟩
      :: callee.outline (depth + 1) (Expr.allOutline (depth + 1) after arguments)

def Expr.allOutline (depth : Nat) (after : Outline) : List (Expr Span) → Outline
  | [] => after
  | e :: es => e.outline depth (Expr.allOutline depth after es)

def Expr.optionOutline (depth : Nat) (after : Outline) : Option (Expr Span) → Outline
  | none => after
  | some e => e.outline depth after

def Expr.slotsOutline (depth : Nat) (after : Outline) : List (Option (Expr Span)) → Outline
  | [] => after
  | e :: es => Expr.optionOutline depth (Expr.slotsOutline depth after es) e

def MemberProperty.outline (depth : Nat) (after : Outline) : MemberProperty Span → Outline
  | .ident id => ⟨depth, "Identifier", id.span, .str id.name⟩ :: after
  | .expr value => value.outline depth after

/-- Only a computed key has entries. -/
def PropertyKey.outline (depth : Nat) (after : Outline) : PropertyKey Span → Outline
  | .ident _ => after
  | .literal _ => after
  | .computed value => value.outline depth after

def Property.outline (depth : Nat) (after : Outline) : Property Span → Outline
  | ⟨key, value, kind, computed, shorthand, method, s⟩ =>
    ⟨depth, "Property", s,
      .arr [key.nameJson, .str kind.name, .bool computed, .bool shorthand, .bool method]⟩
      :: key.outline (depth + 1) (value.outline (depth + 1) after)

def Property.allOutline (depth : Nat) (after : Outline) : List (Property Span) → Outline
  | [] => after
  | p :: ps => p.outline depth (Property.allOutline depth after ps)

def Pattern.outline (depth : Nat) (after : Outline) : Pattern Span → Outline
  | .ident id => ⟨depth, "Identifier", id.span, .str id.name⟩ :: after
  | .member object property computed s =>
    ⟨depth, "MemberExpression", s, .bool computed⟩
      :: object.outline (depth + 1) (property.outline (depth + 1) after)
  | .array elements s =>
    ⟨depth, "ArrayPattern", s, .nat elements.length⟩
      :: Pattern.slotsOutline (depth + 1) after elements
  | .object properties s =>
    ⟨depth, "ObjectPattern", s, .nat properties.length⟩
      :: PatternProperty.allOutline (depth + 1) after properties

def Pattern.optionOutline (depth : Nat) (after : Outline) : Option (Pattern Span) → Outline
  | none => after
  | some p => p.outline depth after

def Pattern.slotsOutline (depth : Nat) (after : Outline) : List (Option (Pattern Span)) → Outline
  | [] => after
  | p :: ps => Pattern.optionOutline depth (Pattern.slotsOutline depth after ps) p

def PatternProperty.outline (depth : Nat) (after : Outline) : PatternProperty Span → Outline
  | ⟨key, value, computed, shorthand, s⟩ =>
    ⟨depth, "Property", s, .arr [key.nameJson, .bool computed, .bool shorthand]⟩
      :: key.outline (depth + 1) (value.outline (depth + 1) after)

def PatternProperty.allOutline (depth : Nat) (after : Outline) :
    List (PatternProperty Span) → Outline
  | [] => after
  | p :: ps => p.outline depth (PatternProperty.allOutline depth after ps)

def Func.outline (type : String) (depth : Nat) (after : Outline) : Func Span → Outline
  | ⟨id, params, body, generator, async, s⟩ =>
    ⟨depth, type, s,
      .arr [.ofOption (fun id => .str id.name) id, .ofNames params, .bool generator, .bool async]⟩
      :: body.outline (depth + 1) after

def Block.outline (depth : Nat) (after : Outline) : Block Span → Outline
  | ⟨body, _⟩ => Statement.allOutline depth after body

def Statement.outline (depth : Nat) (after : Outline) : Statement Span → Outline
  | .vars declaration => declaration.outline depth after
  | .function declaration => declaration.outline "FunctionDeclaration" depth after
  | .classDeclaration declaration => declaration.outline depth after
  | .expression value s =>
    ⟨depth, "ExpressionStatement", s, .null⟩ :: value.outline (depth + 1) after
  | .block value =>
    ⟨depth, "BlockStatement", value.span, .nat value.body.length⟩
      :: value.outline (depth + 1) after
  | .ifElse test consequent alternate s =>
    ⟨depth, "IfStatement", s, .bool alternate.isSome⟩
      :: test.outline (depth + 1)
        (consequent.outline (depth + 1) (Statement.optionOutline (depth + 1) after alternate))
  | .forLoop init test update body s =>
    ⟨depth, "ForStatement", s, .null⟩
      :: ForInit.optionOutline (depth + 1)
        (Expr.optionOutline (depth + 1)
          (Expr.optionOutline (depth + 1) (body.outline (depth + 1) after) update) test) init
  | .whileLoop test body s =>
    ⟨depth, "WhileStatement", s, .null⟩
      :: test.outline (depth + 1) (body.outline (depth + 1) after)
  | .ret argument s =>
    ⟨depth, "ReturnStatement", s, .bool argument.isSome⟩
      :: Expr.optionOutline (depth + 1) after argument
  | .empty s => ⟨depth, "EmptyStatement", s, .null⟩ :: after

def Statement.allOutline (depth : Nat) (after : Outline) : List (Statement Span) → Outline
  | [] => after
  | s :: ss => s.outline depth (Statement.allOutline depth after ss)

def Statement.optionOutline (depth : Nat) (after : Outline) : Option (Statement Span) → Outline
  | none => after
  | some s => s.outline depth after

def VariableDeclaration.outline (depth : Nat) (after : Outline) :
    VariableDeclaration Span → Outline
  | ⟨kind, declarations, s⟩ =>
    ⟨depth, "VariableDeclaration", s, .str kind.keyword⟩
      :: VariableDeclarator.allOutline (depth + 1) after declarations

def VariableDeclarator.outline (depth : Nat) (after : Outline) : VariableDeclarator Span → Outline
  | ⟨id, init, s⟩ =>
    ⟨depth, "VariableDeclarator", s, .str id.name⟩ :: Expr.optionOutline (depth + 1) after init

def VariableDeclarator.allOutline (depth : Nat) (after : Outline) :
    List (VariableDeclarator Span) → Outline
  | [] => after
  | d :: ds => d.outline depth (VariableDeclarator.allOutline depth after ds)

def ForInit.outline (depth : Nat) (after : Outline) : ForInit Span → Outline
  | .vars declaration => declaration.outline depth after
  | .expr value => value.outline depth after

def ForInit.optionOutline (depth : Nat) (after : Outline) : Option (ForInit Span) → Outline
  | none => after
  | some init => init.outline depth after

def Class.outline (depth : Nat) (after : Outline) : Class Span → Outline
  | ⟨id, superClass, body, s⟩ =>
    ⟨depth, "ClassDeclaration", s, .str id.name⟩
      :: Expr.optionOutline (depth + 1) (body.outline (depth + 1) after) superClass

def ClassBody.outline (depth : Nat) (after : Outline) : ClassBody Span → Outline
  | ⟨body, _⟩ => MethodDefinition.allOutline depth after body

def MethodDefinition.outline (depth : Nat) (after : Outline) : MethodDefinition Span → Outline
  | ⟨key, value, kind, _, static, s⟩ =>
    ⟨depth, "MethodDefinition", s, .arr [key.nameJson, .str kind.name, .bool static]⟩
      :: key.outline (depth + 1) (value.outline "FunctionExpression" (depth + 1) after)

def MethodDefinition.allOutline (depth : Nat) (after : Outline) :
    List (MethodDefinition Span) → Outline
  | [] => after
  | m :: ms => m.outline depth (MethodDefinition.allOutline depth after ms)

end

def OutlineEntry.toJson (e : OutlineEntry) : Json :=
  .arr [.nat e.depth, .str e.type, .nat e.span.start.offset, .nat e.span.stop.offset, e.info]

/-- The outline of a program's statements. -/
def Program.outline (p : Program) : Outline := Statement.allOutline 0 [] p.body

end JsSyntax
