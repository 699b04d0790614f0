import JsSyntax.Ast.Basic
import JsSyntax.Decimal.Layout
import JsSyntax.Dump.Basic
import JsSyntax.Text.Quoted

/-! # Dumped syntax trees

Every node is a record wrapped in a tuple that names its sort, when there are several sorts that
could stand in its place.
-/

set_option autoImplicit false

namespace JsSyntax

/-! ## Tokens and diagnostics -/

/-- Numbers from `1e-4` up to `1e16` are written plainly, exponents without a plus sign. -/
def Dump.numberLayout : NumberLayout := ⟨4, 16, "", .up, "inf"⟩

def Dump.ofString (s : String) : Dump := .atom (Quoted.text s)

def Span.toDump (s : Span) : Dump :=
  .record "Span"
    [("start", .ofNat s.start.offset), ("end", .ofNat s.stop.offset),
     ("line", .ofNat s.start.line), ("column", .ofNat s.start.column),
     ("end_line", .ofNat s.stop.line), ("end_column", .ofNat s.stop.column)]

def TokenKind.toDump : TokenKind → Dump
  | .keyword => .atom "Keyword"
  | .identifier => .atom "Identifier"
  | .number => .atom "Number"
  | .string => .atom "String"
  | .templateString => .atom "TemplateString"
  | .boolean => .atom "Boolean"
  | .null => .atom "Null"
  | .operator => .atom "Operator"
  | .punctuation => .atom "Punctuation"
  | .comment => .atom "Comment"
  | .eof => .atom "Eof"
  | .unknown => .atom "Unknown"

def Token.toDump (t : Token) : Dump :=
  .record "Token"
    [("kind", t.kind.toDump), ("value", .ofString t.value), ("span", t.span.toDump)]

def Location.toDump (l : Location) : Dump :=
  .record "SourceLocation" [("line", .ofNat l.line), ("column", .ofNat l.column)]

def Diagnostic.toDump (d : Diagnostic) : Dump :=
  .record "ParseError" [("message", .ofString d.message), ("location", d.location.toDump)]

/-! ## Operators and kinds -/

def UnaryOp.toDump : UnaryOp → Dump
  | .not => .atom "Not"
  | .bitNot => .atom "BitNot"
  | .plus => .atom "Plus"
  | .minus => .atom "Minus"
  | .typeof => .atom "Typeof"
  | .void => .atom "Void"
  | .delete => .atom "Delete"

def UpdateOp.toDump : UpdateOp → Dump
  | .increment => .atom "Increment"
  | .decrement => .atom "Decrement"

def BinaryOp.toDump : BinaryOp → Dump
  | .add => .atom "Add"
  | .sub => .atom "Sub"
  | .mul => .atom "Mul"
  | .div => .atom "Div"
  | .mod => .atom "Mod"
  | .eq => .atom "Eq"
  | .notEq => .atom "NotEq"
  | .strictEq => .atom "StrictEq"
  | .strictNotEq => .atom "StrictNotEq"
  | .lt => .atom "Lt"
  | .ltEq => .atom "LtEq"
  | .gt => .atom "Gt"
  | .gtEq => .atom "GtEq"

def LogicalOp.toDump : LogicalOp → Dump
  | .and => .atom "And"
  | .or => .atom "Or"

def AssignmentOp.toDump : AssignmentOp → Dump
  | .assign => .atom "Assign"
  | .add => .atom "AddAssign"
  | .sub => .atom "SubAssign"
  | .mul => .atom "MulAssign"
  | .div => .atom "DivAssign"
  | .mod => .atom "ModAssign"
  | .exp => .atom "ExpAssign"
  | .shiftLeft => .atom "LShiftAssign"
  | .shiftRight => .atom "RShiftAssign"
  | .shiftRightUnsigned => .atom "URShiftAssign"
  | .bitAnd => .atom "BitAndAssign"
  | .bitOr => .atom "BitOrAssign"
  | .bitXor => .atom "BitXorAssign"

def VariableKind.toDump : VariableKind → Dump
  | .var => .atom "Var"
  | .let => .atom "Let"
  | .const => .atom "Const"

def MethodKind.toDump : MethodKind → Dump
  | .constructor => .atom "Constructor"
  | .method => .atom "Method"
  | .get => .atom "Get"
  | .set => .atom "Set"

def PropertyKind.toDump : PropertyKind → Dump
  | .init => .atom "Init"
  | .get => .atom "Get"
  | .set => .atom "Set"

/-! ## Leaves -/

/-- The record of a node, with its span behind the other fields. -/
def Dump.node (name : String) (fields : List (String × Dump)) (s : Span) : Dump :=
  .record name (fields ++ [("span", s.toDump)])

/-- A node as one of several sorts. -/
def Dump.sort (sort : String) (d : Dump) : Dump := .tuple sort [d]

def Ident.toDump (id : Ident Span) : Dump :=
  .node "Identifier" [("name", .ofString id.name)] id.span

def LiteralValue.toDump : LiteralValue → Dump
  | .null => .atom "Null"
  | .boolean value => .sort "Boolean" (.ofBool value)
  | .number value => .sort "Number" (.atom (Dump.numberLayout.write value))
  | .string value => .sort "String" (.ofString value)

def Literal.toDump (l : Literal Span) : Dump :=
  .node "Literal" [("value", l.value.toDump), ("raw", .ofString l.raw)] l.span

def TemplateElement.toDump (e : TemplateElement Span) : Dump :=
  .node "TemplateElement"
    [("value",
      .record "TemplateValue" [("cooked", .ofString e.cooked), ("raw", .ofString e.raw)]),
     ("tail", .ofBool e.tail)] e.span

/-! ## Nodes -/

mutual

def Expr.toDump : Expr Span → Dump
  | .literal value => .sort "Literal" value.toDump
  | .array elements s =>
    .sort "Array" (.node "ArrayExpression" [("elements", .list (Expr.slotsToDumps elements))] s)
  | .object properties s =>
    .sort "Object"
      (.node "ObjectExpression" [("properties", .list (Property.allToDumps properties))] s)
  | .function value => .sort "Function" value.toDump
  | .template quasis expressions s =>
    .sort "Template"
      (.node "TemplateLiteral"
        [("quasis", .ofList TemplateElement.toDump quasis),
         ("expressions", .list (Expr.allToDumps expressions))] s)
  | .ident id => .sort "Identifier" id.toDump
  | .this s => .sort "This" s.toDump
  | .super s => .sort "Super" s.toDump
  | .unary op argument s =>
    .sort "Unary"
      (.node "UnaryExpression" [("operator", op.toDump), ("argument", argument.toDump)] s)
  | .binary op left right s =>
    .sort "Binary"
      (.node "BinaryExpression"
        [("operator", op.toDump), ("left", left.toDump), ("right", right.toDump)] s)
  | .logical op left right s =>
    .sort "Logical"
      (.node "LogicalExpression"
        [("operator", op.toDump), ("left", left.toDump), ("right", right.toDump)] s)
  | .conditional test consequent alternate s =>
    .sort "Conditional"
      (.node "ConditionalExpression"
        [("test", test.toDump), ("consequent", consequent.toDump),
         ("alternate", alternate.toDump)] s)
  | .assign op left right s =>
    .sort "Assignment"
      (.node "AssignmentExpression"
        [("operator", op.toDump), ("left", left.toDump), ("right", right.toDump)] s)
  | .update op before argument s =>
    .sort "Update"
      (.node "UpdateExpression"
        [("operator", op.toDump), ("prefix", .ofBool before), ("argument", argument.toDump)] s)
  | .await argument s =>
    .sort "Await" (.node "AwaitExpression" [("argument", argument.toDump)] s)
  | .member object property computed s =>
    .sort "Member"
      (.node "MemberExpression"
        [("object", object.toDump), ("property", property.toDump),
         ("computed", .ofBool computed)] s)
  | .call callee arguments s =>
    .sort "Call"
      (.node "CallExpression"
        [("callee", callee.toDump), ("arguments", .list (Expr.allToDumps arguments))] s)
  | .new callee arguments s =>
    .sort "New"
      (.node "NewExpression"
        [("callee", callee.toDump), ("arguments", .list (Expr.allToDumps arguments))] s)

def Expr.allToDumps : List (Expr Span) → List Dump
  | [] => []
  | e :: es => e.toDump :: Expr.allToDumps es

def Expr.optionToDump : Option (Expr Span) → Dump
  | none => .atom "None"
  | some e => .sort "Some" e.toDump

def Expr.slotsToDumps : List (Option (Expr Span)) → List Dump
  | [] => []
  | e :: es => Expr.optionToDump e :: Expr.slotsToDumps es

def MemberProperty.toDump : MemberProperty Span → Dump
  | .ident id => .sort "Identifier" id.toDump
  | .expr value => .sort "Expression" value.toDump

def PropertyKey.toDump : PropertyKey Span → Dump
  | .ident id => .sort "Identifier" id.toDump
  | .literal value => .sort "Literal" value.toDump
  | .computed value => .sort "Computed" value.toDump

def Property.toDump : Property Span → Dump
  | ⟨key, value, kind, computed, shorthand, method, s⟩ =>
    .node "Property"
      [("key", key.toDump), ("value", value.toDump), ("kind", kind.toDump),
       ("computed", .ofBool computed), ("shorthand", .ofBool shorthand),
       ("method", .ofBool method)] s

def Property.allToDumps : List (Property Span) → List Dump
  | [] => []
  | p :: ps => p.toDump :: Property.allToDumps ps

def Pattern.toDump : Pattern Span → Dump
  | .ident id => .sort "Identifier" id.toDump
  | .member object property computed s =>
    .sort "Member"
      (.node "MemberExpression"
        [("object", object.toDump), ("property", property.toDump),
         ("computed", .ofBool computed)] s)
  | .array elements s =>
    .sort "Array" (.node "ArrayPattern" [("elements", .list (Pattern.slotsToDumps elements))] s)
  | .object properties s =>
    .sort "Object"
      (.node "ObjectPattern" [("properties", .list (PatternProperty.allToDumps properties))] s)

def Pattern.optionToDump : Option (Pattern Span) → Dump
  | none => .atom "None"
  | some p => .sort "Some" p.toDump

def Pattern.slotsToDumps : List (Option (Pattern Span)) → List Dump
  | [] => []
  | p :: ps => Pattern.optionToDump p :: Pattern.slotsToDumps ps

def PatternProperty.toDump : PatternProperty Span → Dump
  | ⟨key, value, computed, shorthand, s⟩ =>
    .node "PatternProperty"
      [("key", key.toDump), ("value", value.toDump), ("computed", .ofBool computed),
       ("shorthand", .ofBool shorthand)] s

def PatternProperty.allToDumps : List (PatternProperty Span) → List Dump
  | [] => []
  | p :: ps => p.toDump :: PatternProperty.allToDumps ps

def Func.toDump : Func Span → Dump
  | ⟨id, params, body, generator, async, s⟩ =>
    .node "Function"
      [("id", .ofOption Ident.toDump id), ("params", .ofList Ident.toDump params),
       ("body", body.toDump), ("generator", .ofBool generator), ("async_", .ofBool async)] s

def Block.toDump : Block Span → Dump
  | ⟨body, s⟩ => .node "BlockStatement" [("body", .list (Statement.allToDumps body))] s

def Statement.toDump : Statement Span → Dump
  | .vars declaration => .sort "VariableDeclaration" declaration.toDump
  | .function declaration => .sort "FunctionDeclaration" declaration.toDump
  | .classDeclaration declaration => .sort "ClassDeclaration" declaration.toDump
  | .expression value s =>
    .sort "Expression" (.node "ExpressionStatement" [("expression", value.toDump)] s)
  | .block value => .sort "Block" value.toDump
  | .ifElse test consequent alternate s =>
    .sort "If"
      (.node "IfStatement"
        [("test", test.toDump), ("consequent", consequent.toDump),
         ("alternate", Statement.optionToDump alternate)] s)
  | .forLoop init test update body s =>
    .sort "For"
      (.node "ForStatement"
        [("init", ForInit.optionToDump init), ("test", Expr.optionToDump test),
         ("update", Expr.optionToDump update), ("body", body.toDump)] s)
  | .whileLoop test body s =>
    .sort "While" (.node "WhileStatement" [("test", test.toDump), ("body", body.toDump)] s)
  | .ret argument s =>
    .sort "Return" (.node "ReturnStatement" [("argument", Expr.optionToDump argument)] s)
  | .empty s => .sort "Empty" s.toDump

def Statement.allToDumps : List (Statement Span) → List Dump
  | [] => []
  | s :: ss => s.toDump :: Statement.allToDumps ss

def Statement.optionToDump : Option (Statement Span) → Dump
  | none => .atom "None"
  | some s => .sort "Some" s.toDump

def VariableDeclaration.toDump : VariableDeclaration Span → Dump
  | ⟨kind, declarations, s⟩ =>
    .node "VariableDeclaration"
      [("kind", kind.toDump),
       ("declarations", .list (VariableDeclarator.allToDumps declarations))] s

def VariableDeclarator.toDump : VariableDeclarator Span → Dump
  | ⟨id, init, s⟩ =>
    .node "VariableDeclarator" [("id", id.toDump), ("init", Expr.optionToDump init)] s

def VariableDeclarator.allToDumps : List (VariableDeclarator Span) → List Dump
  | [] => []
  | d :: ds => d.toDump :: VariableDeclarator.allToDumps ds

def ForInit.toDump : ForInit Span → Dump
  | .vars declaration => .sort "Variable" declaration.toDump
  | .expr value => .sort "Expression" value.toDump

def ForInit.optionToDump : Option (ForInit Span) → Dump
  | none => .atom "None"
  | some init => .sort "Some" init.toDump

def Class.toDump : Class Span → Dump
  | ⟨id, superClass, body, s⟩ =>
    .node "ClassDeclaration"
      [("id", id.toDump), ("super_class", Expr.optionToDump superClass), ("body", body.toDump)] s

def ClassBody.toDump : ClassBody Span → Dump
  | ⟨body, s⟩ => .node "ClassBody" [("body", .list (MethodDefinition.allToDumps body))] s

def MethodDefinition.toDump : MethodDefinition Span → Dump
  | ⟨key, value, kind, computed, static, s⟩ =>
    .node "MethodDefinition"
      [("key", key.toDump), ("value", value.toDump), ("kind", kind.toDump),
       ("computed", .ofBool computed), ("static_", .ofBool static)] s

def MethodDefinition.allToDumps : List (MethodDefinition Span) → List Dump
  | [] => []
  | m :: ms => m.toDump :: MethodDefinition.allToDumps ms

end

def Program.toDump (p : Program) : Dump :=
  .node "Program"
    [("body", .list (Statement.allToDumps p.body)), ("comments", .ofList Token.toDump p.comments),
     ("errors", .ofList Diagnostic.toDump p.errors)] p.span

end JsSyntax
