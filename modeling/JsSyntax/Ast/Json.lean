import JsSyntax.Ast.Basic
import JsSyntax.Json.Basic

/-! # Syntax trees as JSON

Every node becomes an object with its type first and its span last.
-/

set_option autoImplicit false

namespace JsSyntax

/-! ## Tokens and diagnostics -/

def Span.jsonFields (s : Span) : List (String × Json) :=
  [("start", .nat s.start.offset), ("end", .nat s.stop.offset),
   ("line", .nat s.start.line), ("column", .nat s.start.column),
   ("endLine", .nat s.stop.line), ("endColumn", .nat s.stop.column)]

def Span.toJson (s : Span) : Json := .obj s.jsonFields

/-- The span of a token is part of its object. -/
def Token.toJson (t : Token) : Json :=
  .obj (("type", .str t.kind.name) :: ("value", .str t.value) :: t.span.jsonFields)

def Location.toJson (l : Location) : Json :=
  .obj [("line", .nat l.line), ("column", .nat l.column)]

def Diagnostic.toJson (d : Diagnostic) : Json :=
  .obj [("message", .str d.message), ("location", d.location.toJson)]

/-! ## Leaves -/

/-- The object of a node. -/
def Json.node (type : String) (fields : List (String × Json)) (s : Span) : Json :=
  .obj (("type", .str type) :: fields ++ [("span", s.toJson)])

def Ident.toJson (id : Ident Span) : Json := .node "Identifier" [("name", .str id.name)] id.span

/-- An infinite number has no JSON form of its own. -/
def LiteralValue.toJson : LiteralValue → Json
  | .null => .null
  | .boolean value => .bool value
  | .number .infinite => .null
  | .number value => .number value
  | .string value => .str value

def Literal.toJson (l : Literal Span) : Json :=
  .node "Literal" [("value", l.value.toJson), ("raw", .str l.raw)] l.span

def TemplateElement.toJson (e : TemplateElement Span) : Json :=
  .node "TemplateElement"
    [("value", .obj [("cooked", .str e.cooked), ("raw", .str e.raw)]), ("tail", .bool e.tail)]
    e.span

/-! ## Nodes -/

mutual

def Expr.toJson : Expr Span → Json
  | .literal value => value.toJson
  | .array elements s => .node "ArrayExpression" [("elements", .arr (Expr.slotsToJson elements))] s
  | .object properties s =>
    .node "ObjectExpression" [("properties", .arr (Property.allToJson properties))] s
  | .function value => value.toJson "FunctionExpression"
  | .template quasis expressions s =>
    .node "TemplateLiteral"
      [("quasis", .ofList TemplateElement.toJson quasis),
       ("expressions", .arr (Expr.allToJson expressions))] s
  | .ident id => id.toJson
  | .this s => .node "ThisExpression" [] s
  | .super s => .node "Super" [] s
  | .unary op argument s =>
    .node "UnaryExpression" [("operator", .str op.symbol), ("argument", argument.toJson)] s
  | .binary op left right s =>
    .node "BinaryExpression"
      [("operator", .str op.symbol), ("left", left.toJson), ("right", right.toJson)] s
  | .logical op left right s =>
    .node "LogicalExpression"
      [("operator", .str op.symbol), ("left", left.toJson), ("right", right.toJson)] s
  | .conditional test consequent alternate s =>
    .node "ConditionalExpression"
      [("test", test.toJson), ("consequent", consequent.toJson), ("alternate", alternate.toJson)] s
  | .assign op left right s =>
    .node "AssignmentExpression"
      [("operator", .str op.symbol), ("left", left.toJson), ("right", right.toJson)] s
  | .update op before argument s =>
    .node "UpdateExpression"
      [("operator", .str op.symbol), ("prefix", .bool before), ("argument", argument.toJson)] s
  | .await argument s => .node "AwaitExpression" [("argument", argument.toJson)] s
  | .member object property computed s =>
    .node "MemberExpression"
      [("object", object.toJson), ("property", property.toJson), ("computed", .bool computed)] s
  | .call callee arguments s =>
    .node "CallExpression"
      [("callee", callee.toJson), ("arguments", .arr (Expr.allToJson arguments))] s
  | .new callee arguments s =>
    .node "NewExpression"
      [("callee", callee.toJson), ("arguments", .arr (Expr.allToJson arguments))] s

def Expr.allToJson : List (Expr Span) → List Json
  | [] => []
  | e :: es => e.toJson :: Expr.allToJson es

def Expr.optionToJson : Option (Expr Span) → Json
  | none => .null
  | some e => e.toJson

def Expr.slotsToJson : List (Option (Expr Span)) → List Json
  | [] => []
  | e :: es => Expr.optionToJson e :: Expr.slotsToJson es

def MemberProperty.toJson : MemberProperty Span → Json
  | .ident id => id.toJson
  | .expr value => value.toJson

def PropertyKey.toJson : PropertyKey Span → Json
  | .ident id => id.toJson
  | .literal value => value.toJson
  | .computed value => value.toJson

def Property.toJson : Property Span → Json
  | ⟨key, value, kind, computed, shorthand, method, s⟩ =>
    .node "Property"
      [("key", key.toJson), ("value", value.toJson), ("kind", .str kind.name),
       ("computed", .bool computed), ("shorthand", .bool shorthand), ("method", .bool method)] s

def Property.allToJson : List (Property Span) → List Json
  | [] => []
  | p :: ps => p.toJson :: Property.allToJson ps

def Pattern.toJson : Pattern Span → Json
  | .ident id => id.toJson
  | .member object property computed s =>
    .node "MemberExpression"
      [("object", object.toJson), ("property", property.toJson), ("computed", .bool computed)] s
  | .array elements s => .node "ArrayPattern" [("elements", .arr (Pattern.slotsToJson elements))] s
  | .object properties s =>
    .node "ObjectPattern" [("properties", .arr (PatternProperty.allToJson properties))] s

def Pattern.optionToJson : Option (Pattern Span) → Json
  | none => .null
  | some p => p.toJson

def Pattern.slotsToJson : List (Option (Pattern Span)) → List Json
  | [] => []
  | p :: ps => Pattern.optionToJson p :: Pattern.slotsToJson ps

def PatternProperty.toJson : PatternProperty Span → Json
  | ⟨key, value, computed, shorthand, s⟩ =>
    .node "Property"
      [("key", key.toJson), ("value", value.toJson), ("computed", .bool computed),
       ("shorthand", .bool shorthand)] s

def PatternProperty.allToJson : List (PatternProperty Span) → List Json
  | [] => []
  | p :: ps => p.toJson :: PatternProperty.allToJson ps

/-- A function is written as a declaration or as an expression, by where it stands. -/
def Func.toJson (type : String) : Func Span → Json
  | ⟨id, params, body, generator, async, s⟩ =>
    .node type
      [("id", .ofOption Ident.toJson id), ("params", .ofList Ident.toJson params),
       ("body", body.toJson), ("generator", .bool generator), ("async", .bool async)] s

def Block.toJson : Block Span → Json
  | ⟨body, s⟩ => .node "BlockStatement" [("body", .arr (Statement.allToJson body))] s

def Statement.toJson : Statement Span → Json
  | .vars declaration => declaration.toJson
  | .function declaration => declaration.toJson "FunctionDeclaration"
  | .classDeclaration declaration => declaration.toJson
  | .expression value s => .node "ExpressionStatement" [("expression", value.toJson)] s
  | .block value => value.toJson
  | .ifElse test consequent alternate s =>
    .node "IfStatement"
      [("test", test.toJson), ("consequent", consequent.toJson),
       ("alternate", Statement.optionToJson alternate)] s
  | .forLoop init test update body s =>
    .node "ForStatement"
      [("init", ForInit.optionToJson init), ("test", Expr.optionToJson test),
       ("update", Expr.optionToJson update), ("body", body.toJson)] s
  | .whileLoop test body s =>
    .node "WhileStatement" [("test", test.toJson), ("body", body.toJson)] s
  | .ret argument s => .node "ReturnStatement" [("argument", Expr.optionToJson argument)] s
  | .empty s => .node "EmptyStatement" [] s

def Statement.allToJson : List (Statement Span) → List Json
  | [] => []
  | s :: ss => s.toJson :: Statement.allToJson ss

def Statement.optionToJson : Option (Statement Span) → Json
  | none => .null
  | some s => s.toJson

def VariableDeclaration.toJson : VariableDeclaration Span → Json
  | ⟨kind, declarations, s⟩ =>
    .node "VariableDeclaration"
      [("kind", .str kind.keyword),
       ("declarations", .arr (VariableDeclarator.allToJson declarations))] s

def VariableDeclarator.toJson : VariableDeclarator Span → Json
  | ⟨id, init, s⟩ =>
    .node "VariableDeclarator" [("id", id.toJson), ("init", Expr.optionToJson init)] s

def VariableDeclarator.allToJson : List (VariableDeclarator Span) → List Json
  | [] => []
  | d :: ds => d.toJson :: VariableDeclarator.allToJson ds

def ForInit.toJson : ForInit Span → Json
  | .vars declaration => declaration.toJson
  | .expr value => value.toJson

def ForInit.optionToJson : Option (ForInit Span) → Json
  | none => .null
  | some init => init.toJson

def Class.toJson : Class Span → Json
  | ⟨id, superClass, body, s⟩ =>
    .node "ClassDeclaration"
      [("id", id.toJson), ("superClass", Expr.optionToJson superClass), ("body", body.toJson)] s

def ClassBody.toJson : ClassBody Span → Json
  | ⟨body, s⟩ => .node "ClassBody" [("body", .arr (MethodDefinition.allToJson body))] s

def MethodDefinition.toJson : MethodDefinition Span → Json
  | ⟨key, value, kind, computed, static, s⟩ =>
    .node "MethodDefinition"
      [("key", key.toJson), ("value", value.toJson "FunctionExpression"), ("kind", .str kind.name),
       ("computed", .bool computed), ("static", .bool static)] s

def MethodDefinition.allToJson : List (MethodDefinition Span) → List Json
  | [] => []
  | m :: ms => m.toJson :: MethodDefinition.allToJson ms

end

def Program.toJson (p : Program) : Json :=
  .node "Program"
    [("body", .arr (Statement.allToJson p.body)), ("comments", .ofList Token.toJson p.comments),
     ("errors", .ofList Diagnostic.toJson p.errors)] p.span

end JsSyntax
