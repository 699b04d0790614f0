import Mathlib.Data.List.Basic
import JsSyntax.Ast.Node
import JsSyntax.Ast.Target

/-! # The roles of nodes

A `Role` says what a node is to the node above it: an item of a block, an operand, a callee. The
children of a node with their roles are its `sites`, and a `Path` leads down from node to node, by
the roles of the nodes that it visits. The positions in which a nested phrase is read one level
deeper are the guarded ones (`Role.guarded`).
-/

set_option autoImplicit false

namespace JsSyntax

variable {σ : Type}

/-! ## Roles -/

inductive Role where
  /-- An item of a program, a block or a body, a branch of `if`, the body of a loop. -/
  | statement
  /-- The expression of an expression statement. -/
  | expression
  /-- The initialiser of a variable. -/
  | initialiser
  /-- An expression in the parentheses of `if`, `while` or `for`. -/
  | clause
  /-- The argument of `return`. -/
  | returned
  /-- The right side of an assignment. -/
  | assigned
  /-- What a conditional chooses from. -/
  | branch
  /-- An argument of a call or of `new`. -/
  | argument
  /-- A member or a key in brackets. -/
  | bracketed
  /-- An element of an array, or of an array pattern. -/
  | element
  /-- The value of a property, or of a property of a pattern, behind a colon. -/
  | value
  /-- The operand of a prefix operator, of `await` or of a prefix update. -/
  | operand
  /-- The value of a property that is written as a name alone. -/
  | shorthand
  /-- The same in a pattern. -/
  | patternShorthand
  /-- An operand of an operator with two operands. -/
  | binaryOperand
  /-- An operand of a logical operator. -/
  | logicalOperand
  /-- What is called or made with `new`. -/
  | callee
  /-- What has the member. -/
  | object
  /-- What a class extends. -/
  | superClass
  /-- The test of a conditional. -/
  | test
  /-- The left side of an assignment. -/
  | target
  /-- The operand of a postfix update. -/
  | counted
  /-- Anything else: a name, a declaration, a function, a part that is no expression. -/
  | part
deriving DecidableEq

/-- Is a phrase in this position read one level deeper? -/
def Role.guarded : Role → Bool
  | .statement | .expression | .initialiser | .clause | .returned | .assigned | .branch
  | .argument | .bracketed | .element | .value | .operand => true
  | .shorthand | .patternShorthand | .binaryOperand | .logicalOperand | .callee | .object
  | .superClass | .test | .target | .counted | .part => false

/-! ## Children with their roles -/

/-- A node with its role. -/
abbrev Site (σ : Type) : Type := Role × Node σ

def MemberProperty.site : MemberProperty σ → Site σ
  | .ident id => (.part, .ident id)
  | .expr value => (.bracketed, .expr value)

def PropertyKey.site : PropertyKey σ → Site σ
  | .ident id => (.part, .ident id)
  | .literal value => (.part, .literal value)
  | .computed value => (.bracketed, .expr value)

def ForInit.site : ForInit σ → Site σ
  | .vars declaration => (.part, .declaration declaration)
  | .expr value => (.clause, .expr value)

/-- The function of a method or an accessor has no colon in front of it. -/
def Property.valueRole (p : Property σ) : Role :=
  if p.kind = .init ∧ p.method = false then if p.shorthand then .shorthand else .value else .part

def PatternProperty.valueRole (p : PatternProperty σ) : Role :=
  if p.shorthand then .patternShorthand else .value

def Expr.sites : Expr σ → List (Site σ)
  | .literal value => [(.part, .literal value)]
  | .array elements _ => elements.filterMap (Option.map fun e => (.element, .expr e))
  | .object properties _ => properties.map fun p => (.part, .property p)
  | .function value => [(.part, .function value)]
  | .template quasis expressions _ =>
    (TemplateElement.alternate quasis expressions).map fun n => (.part, n)
  | .ident id => [(.part, .ident id)]
  | .this _ => []
  | .super _ => []
  | .unary _ argument _ => [(.operand, .expr argument)]
  | .binary _ left right _ => [(.binaryOperand, .expr left), (.binaryOperand, .expr right)]
  | .logical _ left right _ => [(.logicalOperand, .expr left), (.logicalOperand, .expr right)]
  | .conditional test consequent alternate _ =>
    [(.test, .expr test), (.branch, .expr consequent), (.branch, .expr alternate)]
  | .assign _ left right _ => [(.target, .pattern left), (.assigned, .expr right)]
  | .update _ before argument _ => [(if before then .operand else .counted, .expr argument)]
  | .await argument _ => [(.operand, .expr argument)]
  | .member base property _ _ => [(.object, .expr base), property.site]
  | .call callee arguments _ =>
    (.callee, .expr callee) :: arguments.map fun e => (.argument, .expr e)
  | .new callee arguments _ =>
    (.callee, .expr callee) :: arguments.map fun e => (.argument, .expr e)

def Pattern.sites : Pattern σ → List (Site σ)
  | .ident id => [(.part, .ident id)]
  | .member base property _ _ => [(.object, .expr base), property.site]
  | .array elements _ => elements.filterMap (Option.map fun p => (.element, .pattern p))
  | .object properties _ => properties.map fun p => (.part, .patternProperty p)

def Statement.sites : Statement σ → List (Site σ)
  | .vars declaration => [(.part, .declaration declaration)]
  | .function declaration => [(.part, .function declaration)]
  | .classDeclaration declaration => [(.part, .classDeclaration declaration)]
  | .expression value _ => [(.expression, .expr value)]
  | .block value => [(.part, .block value)]
  | .ifElse test consequent alternate _ =>
    (.clause, .expr test) :: (.statement, .statement consequent) ::
      alternate.toList.map fun st => (.statement, .statement st)
  | .forLoop init test update body _ =>
    init.toList.map ForInit.site ++ (test.toList.map fun e => (.clause, .expr e)) ++
      (update.toList.map fun e => (.clause, .expr e)) ++ [(.statement, .statement body)]
  | .whileLoop test body _ => [(.clause, .expr test), (.statement, .statement body)]
  | .ret argument _ => argument.toList.map fun e => (.returned, .expr e)
  | .empty _ => []

def Node.sites : Node σ → List (Site σ)
  | .statement value => value.sites
  | .declaration value => value.declarations.map fun d => (.part, .declarator d)
  | .declarator value =>
    (.part, .ident value.id) :: value.init.toList.map fun e => (.initialiser, .expr e)
  | .function value =>
    (value.id.toList.map fun id => (.part, .ident id)) ++
      (value.params.map fun id => (.part, .ident id)) ++ [(.part, .block value.body)]
  | .block value => value.body.map fun st => (.statement, .statement st)
  | .classDeclaration value =>
    (.part, .ident value.id) :: (value.superClass.toList.map fun e => (.superClass, .expr e)) ++
      [(.part, .classBody value.body)]
  | .classBody value => value.body.map fun m => (.part, .method m)
  | .method value => [value.key.site, (.part, .function value.value)]
  | .property value => [value.key.site, (value.valueRole, value.valueNode)]
  | .patternProperty value => [value.key.site, (value.valueRole, .pattern value.value)]
  | .expr value => value.sites
  | .pattern value => value.sites
  | .ident _ => []
  | .literal _ => []
  | .quasi _ => []

theorem MemberProperty.snd_site (property : MemberProperty σ) :
    property.site.2 = property.node := by
  cases property <;> rfl

theorem PropertyKey.snd_site (key : PropertyKey σ) : key.site.2 = key.node := by
  cases key <;> rfl

theorem ForInit.snd_site (init : ForInit σ) : init.site.2 = init.node := by
  cases init <;> rfl

namespace Node

/-- Every child has one role, and nothing else has. -/
theorem map_snd_sites (n : Node σ) : n.sites.map Prod.snd = n.children := by
  cases n with
  | statement st =>
    cases st <;>
      simp [sites, Statement.sites, children, Statement.children, Function.comp_def,
        ForInit.snd_site]
  | expr e =>
    cases e <;>
      simp [sites, Expr.sites, children, Expr.children, Function.comp_def, List.map_filterMap,
        MemberProperty.snd_site]
  | pattern p =>
    cases p <;>
      simp [sites, Pattern.sites, children, Pattern.children, Function.comp_def,
        List.map_filterMap, MemberProperty.snd_site]
  | classDeclaration value =>
    simp [sites, children, heritage, Function.comp_def]
  | _ => simp [sites, children, Function.comp_def, PropertyKey.snd_site]

theorem mem_children_iff {n c : Node σ} : c ∈ n.children ↔ ∃ role, (role, c) ∈ n.sites := by
  rw [← map_snd_sites]
  refine List.mem_map.trans ⟨?_, fun ⟨role, h⟩ => ⟨_, h, rfl⟩⟩
  rintro ⟨⟨role, _⟩, h, rfl⟩
  exact ⟨role, h⟩

/-! ## Paths -/

/-- The second node is reached from the first one over nodes with these roles. -/
inductive Path : Node σ → List Role → Node σ → Prop where
  | here {n : Node σ} : Path n [] n
  | down {n c m : Node σ} {role : Role} {path : List Role} :
      (role, c) ∈ n.sites → Path c path m → Path n (role :: path) m

/-- The node that is reached over the first child with each of the roles. -/
def follow : Node σ → List Role → Option (Node σ)
  | n, [] => some n
  | n, role :: path => (n.sites.find? (·.1 = role)).bind fun site => site.2.follow path

theorem path_of_follow {n m : Node σ} {path : List Role} (h : n.follow path = some m) :
    n.Path path m := by
  induction path generalizing n with
  | nil =>
    cases h
    exact .here
  | cons role path ih =>
    obtain ⟨⟨role', c⟩, hfind, hfollow⟩ := Option.bind_eq_some_iff.1 h
    obtain rfl : role' = role := by simpa using List.find?_some hfind
    exact .down (List.mem_of_find?_eq_some hfind) (ih hfollow)

end Node

end JsSyntax
