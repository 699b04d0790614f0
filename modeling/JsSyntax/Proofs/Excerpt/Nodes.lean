import Mathlib.Logic.Relation
import JsSyntax.Ast.Node
import JsSyntax.Proofs.Parse.Gathers

/-! # The expressions below a node

`Node.All Q n`: every expression at or below the node `n` has the property `Q`, but for those in
what a class extends. The nodes in the values that routines give are their parts, and a node that a
routine builds has the property when its children have it and it does so itself, if it is an
expression.
-/

set_option autoImplicit false

namespace JsSyntax

namespace Node

/-- The second node occurs at or below the first one, and not in what a class extends. -/
def Holds {σ : Type} : Node σ → Node σ → Prop :=
  Relation.ReflTransGen fun n c => c ∈ n.children ∧ c ∉ n.heritage

/-- All expressions that the node holds have the property. -/
def All (Q : Expr Span → Prop) (n : Node Span) : Prop := ∀ e, n.Holds (.expr e) → Q e

def isExpr {σ : Type} : Node σ → Bool
  | .expr _ => true
  | _ => false

theorem exists_expr {σ : Type} {n : Node σ} (h : n.isExpr = true) : ∃ e, n = .expr e := by
  cases n with
  | expr e => exact ⟨e, rfl⟩
  | _ => cases h

namespace All

variable {Q : Expr Span → Prop} {n c : Node Span}

theorem of_children (h : ∀ c ∈ n.children, c ∉ n.heritage → c.All Q)
    (hself : ∀ e, n = .expr e → Q e) : n.All Q := by
  intro e he
  rcases Relation.ReflTransGen.cases_head he with rfl | ⟨c, ⟨hc, hno⟩, he⟩
  · exact hself e rfl
  · exact h c hc hno e he

theorem ident (id : Ident Span) : (Node.ident id).All Q := .of_children nofun nofun

theorem expr {e : Expr Span} (hself : Q e) (h : ∀ c ∈ e.children, c.All Q) :
    (Node.expr e).All Q := by
  refine of_children (fun c hc _ => h c hc) ?_
  rintro _ ⟨⟩
  exact hself

theorem child (h : n.All Q) (hc : c ∈ n.children) (hno : c ∉ n.heritage) : c.All Q :=
  fun e he => h e (he.head ⟨hc, hno⟩)

theorem child_expr {e : Expr Span} (h : (Node.expr e).All Q) (hc : c ∈ e.children) : c.All Q :=
  h.child (n := .expr e) hc List.not_mem_nil

end All

end Node

/-! ## Patterns -/

section
variable {Q : Expr Span → Prop}

mutual

/-- What an expression holds, the pattern holds that it is read as. -/
theorem Node.All.pattern : (p : Pattern Span) → (Node.expr p.toExpr).All Q → (Node.pattern p).All Q
  | .ident _, h => .of_children (fun _ hc _ => h.child_expr hc) nofun
  | .member .., h => .of_children (fun _ hc _ => h.child_expr hc) nofun
  | .array elements _, h =>
    .of_children (fun c hc _ => Node.All.slots elements (fun _ hc => h.child_expr hc) c hc) nofun
  | .object properties _, h =>
    .of_children (fun c hc _ => Node.All.patternProperties properties
      (fun _ hc => h.child_expr hc) c hc) nofun

theorem Node.All.slots : (ps : List (Option (Pattern Span))) →
    (∀ c ∈ (Pattern.slotsToExprs ps).filterMap (Option.map .expr), Node.All Q c) →
    ∀ c ∈ ps.filterMap (Option.map .pattern), Node.All Q c
  | [], _ => nofun
  | none :: ps, h => Node.All.slots ps h
  | some p :: ps, h => List.forall_mem_cons.2
    ⟨Node.All.pattern p (h _ List.mem_cons_self),
      Node.All.slots ps fun c hc => h c (List.mem_cons_of_mem _ hc)⟩

theorem Node.All.patternProperties : (ps : List (PatternProperty Span)) →
    (∀ c ∈ (PatternProperty.allToProperties ps).map .property, Node.All Q c) →
    ∀ c ∈ ps.map .patternProperty, Node.All Q c
  | [], _ => nofun
  | ⟨key, value, _, _, _⟩ :: ps, h => by
    obtain ⟨hp, hps⟩ := List.forall_mem_cons.1 h
    refine List.forall_mem_cons.2 ⟨.of_children (fun c hc _ => ?_) nofun,
      Node.All.patternProperties ps hps⟩
    rcases List.mem_cons.1 hc with rfl | hc
    · exact hp.child List.mem_cons_self List.not_mem_nil
    · rw [List.mem_singleton.1 hc]
      exact Node.All.pattern value
        (hp.child (List.mem_cons_of_mem _ List.mem_cons_self) List.not_mem_nil)

end

end

namespace Parse

/-! ## Nodes in values -/

instance : Carries (Node Span) (Expr Span) := ⟨fun e => [.expr e]⟩

instance : Carries (Node Span) (PropertyKey Span) := ⟨fun key => [key.node]⟩

instance : Carries (Node Span) (Property Span) := ⟨fun p => [.property p]⟩

instance : Carries (Node Span) (Func Span) := ⟨fun f => [.function f]⟩

instance : Carries (Node Span) (Block Span) := ⟨fun b => [.block b]⟩

instance : Carries (Node Span) (Statement Span) := ⟨fun st => [.statement st]⟩

instance : Carries (Node Span) (VariableDeclaration Span) := ⟨fun d => [.declaration d]⟩

instance : Carries (Node Span) (VariableDeclarator Span) := ⟨fun d => [.declarator d]⟩

instance : Carries (Node Span) (ForInit Span) := ⟨fun init => [init.node]⟩

instance : Carries (Node Span) (Class Span) := ⟨fun c => [.classDeclaration c]⟩

instance : Carries (Node Span) (ClassBody Span) := ⟨fun body => [.classBody body]⟩

instance : Carries (Node Span) (MethodDefinition Span) := ⟨fun m => [.method m]⟩

theorem parts_eq_map {α : Type} [Carries (Node Span) α] {f : α → Node Span}
    (hf : ∀ a, parts a = [f a]) (as : List α) : parts as = as.map f := by
  show as.flatMap parts = as.map f
  rw [funext hf, List.map_eq_flatMap]

namespace Held

variable {Q : Expr Span → Prop} {K : List (Node Span)} {α : Type}

/-- A node that is no expression is known when its children are. -/
theorem node {n : Node Span} (hn : n.isExpr = false) [h : Known (Node.All Q) K n.children] :
    Known (Node.All Q) K [n] := by
  refine ⟨fun hK x hx => ?_⟩
  rw [List.mem_singleton.1 hx]
  refine .of_children (fun c hc _ => h.all hK c hc) ?_
  rintro e rfl
  cases hn

/-! ## Lists of nodes -/

theorem listMap [Carries (Node Span) α] {f : α → Node Span} (hf : ∀ a, parts a = [f a])
    {as : List α} [h : Known (Node.All Q) K (parts as)] : Known (Node.All Q) K (as.map f) := by
  rwa [parts_eq_map hf] at h

instance leaves {ids : List (Ident Span)} : Known (Node.All Q) K (ids.map .ident) := by
  refine ⟨fun _ x hx => ?_⟩
  obtain ⟨id, -, rfl⟩ := List.mem_map.1 hx
  exact .ident id

instance expressions {es : List (Expr Span)} [Known (Node.All Q) K (parts es)] :
    Known (Node.All Q) K (es.map .expr) := listMap fun _ => rfl

instance statements {sts : List (Statement Span)} [Known (Node.All Q) K (parts sts)] :
    Known (Node.All Q) K (sts.map .statement) := listMap fun _ => rfl

instance declarators {ds : List (VariableDeclarator Span)} [Known (Node.All Q) K (parts ds)] :
    Known (Node.All Q) K (ds.map .declarator) := listMap fun _ => rfl

instance methods {ms : List (MethodDefinition Span)} [Known (Node.All Q) K (parts ms)] :
    Known (Node.All Q) K (ms.map .method) := listMap fun _ => rfl

instance forInits {inits : List (ForInit Span)} [Known (Node.All Q) K (parts inits)] :
    Known (Node.All Q) K (inits.map ForInit.node) := listMap fun _ => rfl

instance properties {ps : List (Property Span)} [Known (Node.All Q) K (parts ps)] :
    Known (Node.All Q) K (ps.map .property) := listMap fun _ => rfl

instance slots {es : List (Option (Expr Span))} [h : Known (Node.All Q) K (parts es)] :
    Known (Node.All Q) K (es.filterMap (Option.map .expr)) := by
  refine ⟨fun hK x hx => h.all hK x ?_⟩
  obtain ⟨e, he, hx⟩ := List.mem_filterMap.1 hx
  obtain ⟨e, rfl, rfl⟩ := Option.map_eq_some_iff.1 hx
  exact List.mem_flatMap.2 ⟨some e, he, by simp [parts]⟩

/-! ## Keys and functions -/

section
variable {e : Expr Span} {key : PropertyKey Span} {f : Func Span} {b : Block Span}
  {st : Statement Span} {s : Span}

instance keyName (id : Ident Span) : Known (Node.All Q) K (parts (PropertyKey.ident id)) :=
  node rfl (h := Known.nil)

instance keyLiteral (value : Literal Span) :
    Known (Node.All Q) K (parts (PropertyKey.literal value)) := node rfl (h := Known.nil)

instance keyComputed [h : Known (Node.All Q) K (parts e)] :
    Known (Node.All Q) K (parts (PropertyKey.computed e)) := h

instance func {id : Option (Ident Span)} {params : List (Ident Span)} {generator async : Bool}
    [Known (Node.All Q) K (parts b)] :
    Known (Node.All Q) K (parts (Func.mk id params b generator async s)) :=
  node rfl (h := inferInstanceAs (Known (Node.All Q) K
    (id.toList.map .ident ++ params.map .ident ++ parts b)))

instance block {sts : List (Statement Span)} [Known (Node.All Q) K (parts sts)] :
    Known (Node.All Q) K (parts (Block.mk sts s)) :=
  node rfl (h := statements)

/-! ## Declarations -/

instance declarator {id : Ident Span} {init : Option (Expr Span)}
    [Known (Node.All Q) K (parts init)] :
    Known (Node.All Q) K (parts (VariableDeclarator.mk id init s)) :=
  node rfl (h := inferInstanceAs (Known (Node.All Q) K ([id].map .ident ++ init.toList.map .expr)))

instance declaration {kind : VariableKind} {ds : List (VariableDeclarator Span)}
    [Known (Node.All Q) K (parts ds)] :
    Known (Node.All Q) K (parts (VariableDeclaration.mk kind ds s)) :=
  node rfl (h := declarators)

instance declarations {d : VariableDeclaration Span} [h : Known (Node.All Q) K (parts d)] :
    Known (Node.All Q) K (parts d.declarations) := by
  refine ⟨fun hK x hx => ?_⟩
  have hd : (Node.declaration d).All Q := h.all hK _ (List.mem_singleton_self _)
  obtain ⟨y, hy, hx⟩ := List.mem_flatMap.1 hx
  rw [List.mem_singleton.1 hx]
  exact hd.child (List.mem_map_of_mem hy) List.not_mem_nil

instance initVars {d : VariableDeclaration Span} [h : Known (Node.All Q) K (parts d)] :
    Known (Node.All Q) K (parts (ForInit.vars d)) := h

instance initExpr [h : Known (Node.All Q) K (parts e)] :
    Known (Node.All Q) K (parts (ForInit.expr e)) := h

/-! ## Classes -/

instance methodDefinition {kind : MethodKind} {computed static : Bool}
    [Known (Node.All Q) K (parts key)] [Known (Node.All Q) K (parts f)] :
    Known (Node.All Q) K (parts (MethodDefinition.mk key f kind computed static s)) :=
  node rfl (h := inferInstanceAs (Known (Node.All Q) K (parts key ++ parts f)))

instance classBody {ms : List (MethodDefinition Span)} [Known (Node.All Q) K (parts ms)] :
    Known (Node.All Q) K (parts (ClassBody.mk ms s)) :=
  node rfl (h := methods)

/-- What the class extends does not count. -/
instance classDeclaration {id : Ident Span} {superClass : Option (Expr Span)}
    {body : ClassBody Span} [h : Known (Node.All Q) K (parts body)] :
    Known (Node.All Q) K (parts (Class.mk id superClass body s)) := by
  refine ⟨fun hK x hx => ?_⟩
  rw [List.mem_singleton.1 hx]
  refine .of_children (fun c hc hno => ?_) nofun
  rcases List.mem_cons.1 hc with rfl | hc
  · exact .ident id
  rcases List.mem_append.1 hc with hc | hc
  · exact absurd hc hno
  · exact h.all hK c hc

/-! ## Statements -/

instance vars {d : VariableDeclaration Span} [h : Known (Node.All Q) K (parts d)] :
    Known (Node.All Q) K (parts (Statement.vars d)) := node rfl (h := h)

instance function [h : Known (Node.All Q) K (parts f)] :
    Known (Node.All Q) K (parts (Statement.function f)) := node rfl (h := h)

instance classStatement {c : Class Span} [h : Known (Node.All Q) K (parts c)] :
    Known (Node.All Q) K (parts (Statement.classDeclaration c)) := node rfl (h := h)

instance expression [h : Known (Node.All Q) K (parts e)] :
    Known (Node.All Q) K (parts (Statement.expression e s)) := node rfl (h := h)

instance blockStatement [h : Known (Node.All Q) K (parts b)] :
    Known (Node.All Q) K (parts (Statement.block b)) := node rfl (h := h)

instance ifElse {alternate : Option (Statement Span)} [Known (Node.All Q) K (parts e)]
    [Known (Node.All Q) K (parts st)] [Known (Node.All Q) K (parts alternate)] :
    Known (Node.All Q) K (parts (Statement.ifElse e st alternate s)) :=
  node rfl (h := inferInstanceAs (Known (Node.All Q) K
    (parts e ++ (parts st ++ alternate.toList.map .statement))))

instance forLoop {init : Option (ForInit Span)} {test update : Option (Expr Span)}
    [Known (Node.All Q) K (parts init)] [Known (Node.All Q) K (parts test)]
    [Known (Node.All Q) K (parts update)] [Known (Node.All Q) K (parts st)] :
    Known (Node.All Q) K (parts (Statement.forLoop init test update st s)) :=
  node rfl (h := inferInstanceAs (Known (Node.All Q) K (init.toList.map ForInit.node ++
    test.toList.map .expr ++ update.toList.map .expr ++ parts st)))

instance whileLoop [Known (Node.All Q) K (parts e)] [Known (Node.All Q) K (parts st)] :
    Known (Node.All Q) K (parts (Statement.whileLoop e st s)) :=
  node rfl (h := inferInstanceAs (Known (Node.All Q) K (parts e ++ parts st)))

instance ret {argument : Option (Expr Span)} [Known (Node.All Q) K (parts argument)] :
    Known (Node.All Q) K (parts (Statement.ret argument s)) :=
  node rfl (h := inferInstanceAs (Known (Node.All Q) K (argument.toList.map .expr)))

instance empty : Known (Node.All Q) K (parts (Statement.empty s)) := node rfl (h := Known.nil)

end

end Held

end Parse

end JsSyntax
