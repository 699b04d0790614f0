import JsSyntax.Ast.Node

/-! # Induction over nodes

A node is bigger than its children (`Node.sizeOf_child_lt`), so what goes from the children of a
node to the node holds of all nodes (`Node.induct`).
-/

set_option autoImplicit false

namespace JsSyntax

variable {σ α : Type}

/-! ## Lists of nodes -/

section
variable [SizeOf α] {f : α → Node σ} (hf : ∀ a, sizeOf (f a) ≤ 1 + sizeOf a) {c : Node σ}
include hf

theorem sizeOf_lt_of_mem_map {as : List α} (hc : c ∈ as.map f) : sizeOf c < 1 + sizeOf as := by
  obtain ⟨a, ha, rfl⟩ := List.mem_map.1 hc
  have := List.sizeOf_lt_of_mem ha
  have := hf a
  omega

theorem sizeOf_lt_of_mem_option {a : Option α} (hc : c ∈ a.toList.map f) :
    sizeOf c < 1 + sizeOf a := by
  cases a with
  | none => cases hc
  | some a =>
    have := hf a
    rw [List.mem_singleton.1 hc, Option.some.sizeOf_spec]
    omega

theorem sizeOf_lt_of_mem_slots {as : List (Option α)} (hc : c ∈ as.filterMap (Option.map f)) :
    sizeOf c < 1 + sizeOf as := by
  obtain ⟨a, ha, hfa⟩ := List.mem_filterMap.1 hc
  obtain ⟨a, rfl, rfl⟩ := Option.map_eq_some_iff.1 hfa
  have := List.sizeOf_lt_of_mem ha
  rw [Option.some.sizeOf_spec] at this
  have := hf a
  omega

end

theorem sizeOf_lt_of_mem_alternate {quasis : List (TemplateElement σ)} {es : List (Expr σ)}
    {c : Node σ} (hc : c ∈ TemplateElement.alternate quasis es) :
    sizeOf c < 1 + sizeOf quasis + sizeOf es := by
  induction quasis generalizing es with
  | nil =>
    have := sizeOf_lt_of_mem_map (fun _ => Nat.le_refl _) hc
    omega
  | cons quasi quasis ih =>
    cases es with
    | nil =>
      have hc : c ∈ (quasi :: quasis).map .quasi := hc
      have := sizeOf_lt_of_mem_map (fun _ => Nat.le_refl _) hc
      omega
    | cons e es =>
      simp only [TemplateElement.alternate, List.mem_cons] at hc
      rw [List.cons.sizeOf_spec, List.cons.sizeOf_spec]
      rcases hc with rfl | rfl | hc
      · rw [Node.quasi.sizeOf_spec]
        omega
      · rw [Node.expr.sizeOf_spec]
        omega
      · have := ih hc
        omega

/-! ## Children -/

theorem MemberProperty.sizeOf_node (property : MemberProperty σ) :
    sizeOf property.node = sizeOf property := by
  cases property <;> rfl

theorem PropertyKey.sizeOf_node (key : PropertyKey σ) : sizeOf key.node = sizeOf key := by
  cases key <;> rfl

theorem ForInit.sizeOf_node (init : ForInit σ) : sizeOf init.node = sizeOf init := by
  cases init <;> rfl

theorem Property.sizeOf_valueNode_le (p : Property σ) :
    sizeOf p.valueNode ≤ 1 + sizeOf p.value := by
  unfold valueNode
  split
  · exact Nat.le_refl _
  · split
    · next h => simp [h]
    · exact Nat.le_refl _

namespace Node

theorem sizeOf_expr_child_lt {e : Expr σ} {c : Node σ} (hc : c ∈ e.children) :
    sizeOf c < 1 + sizeOf e := by
  cases e with
  | array elements s =>
    have := sizeOf_lt_of_mem_slots (fun _ => Nat.le_refl _) hc
    rw [Expr.array.sizeOf_spec]
    omega
  | object properties s =>
    have := sizeOf_lt_of_mem_map (fun _ => Nat.le_refl _) hc
    rw [Expr.object.sizeOf_spec]
    omega
  | template quasis expressions s =>
    have := sizeOf_lt_of_mem_alternate hc
    rw [Expr.template.sizeOf_spec]
    omega
  | call callee arguments s =>
    rw [Expr.call.sizeOf_spec]
    rcases List.mem_cons.1 hc with rfl | hc
    · rw [expr.sizeOf_spec]
      omega
    · have := sizeOf_lt_of_mem_map (fun _ => Nat.le_refl _) hc
      omega
  | new callee arguments s =>
    rw [Expr.new.sizeOf_spec]
    rcases List.mem_cons.1 hc with rfl | hc
    · rw [expr.sizeOf_spec]
      omega
    · have := sizeOf_lt_of_mem_map (fun _ => Nat.le_refl _) hc
      omega
  | member object property computed s =>
    simp only [Expr.children, List.mem_cons, List.not_mem_nil, or_false] at hc
    have := property.sizeOf_node
    rw [Expr.member.sizeOf_spec]
    rcases hc with rfl | rfl
    · rw [expr.sizeOf_spec]
      omega
    · omega
  | literal | function | ident =>
    rw [List.mem_singleton.1 hc]
    simp only [literal.sizeOf_spec, function.sizeOf_spec, ident.sizeOf_spec,
      Expr.literal.sizeOf_spec, Expr.function.sizeOf_spec, Expr.ident.sizeOf_spec]
    omega
  | unary | update | await =>
    rw [List.mem_singleton.1 hc]
    simp only [expr.sizeOf_spec, Expr.unary.sizeOf_spec, Expr.update.sizeOf_spec,
      Expr.await.sizeOf_spec]
    omega
  | binary | logical =>
    simp only [Expr.children, List.mem_cons, List.not_mem_nil, or_false] at hc
    simp only [Expr.binary.sizeOf_spec, Expr.logical.sizeOf_spec]
    rcases hc with rfl | rfl <;> rw [expr.sizeOf_spec] <;> omega
  | assign =>
    simp only [Expr.children, List.mem_cons, List.not_mem_nil, or_false] at hc
    rw [Expr.assign.sizeOf_spec]
    rcases hc with rfl | rfl
    · rw [pattern.sizeOf_spec]
      omega
    · rw [expr.sizeOf_spec]
      omega
  | conditional =>
    simp only [Expr.children, List.mem_cons, List.not_mem_nil, or_false] at hc
    rw [Expr.conditional.sizeOf_spec]
    rcases hc with rfl | rfl | rfl <;> rw [expr.sizeOf_spec] <;> omega
  | this | super => cases hc

theorem sizeOf_pattern_child_lt {p : Pattern σ} {c : Node σ} (hc : c ∈ p.children) :
    sizeOf c < 1 + sizeOf p := by
  cases p with
  | ident id =>
    rw [List.mem_singleton.1 hc, ident.sizeOf_spec, Pattern.ident.sizeOf_spec]
    omega
  | member object property computed s =>
    simp only [Pattern.children, List.mem_cons, List.not_mem_nil, or_false] at hc
    have := property.sizeOf_node
    rw [Pattern.member.sizeOf_spec]
    rcases hc with rfl | rfl
    · rw [expr.sizeOf_spec]
      omega
    · omega
  | array elements s =>
    have := sizeOf_lt_of_mem_slots (fun _ => Nat.le_refl _) hc
    rw [Pattern.array.sizeOf_spec]
    omega
  | object properties s =>
    have := sizeOf_lt_of_mem_map (fun _ => Nat.le_refl _) hc
    rw [Pattern.object.sizeOf_spec]
    omega

theorem sizeOf_statement_child_lt {st : Statement σ} {c : Node σ} (hc : c ∈ st.children) :
    sizeOf c < 1 + sizeOf st := by
  cases st with
  | vars | function | classDeclaration | expression | block =>
    rw [List.mem_singleton.1 hc]
    simp only [declaration.sizeOf_spec, function.sizeOf_spec, classDeclaration.sizeOf_spec,
      expr.sizeOf_spec, block.sizeOf_spec, Statement.vars.sizeOf_spec,
      Statement.function.sizeOf_spec, Statement.classDeclaration.sizeOf_spec,
      Statement.expression.sizeOf_spec, Statement.block.sizeOf_spec]
    omega
  | ifElse test consequent alternate s =>
    simp only [Statement.children, List.mem_cons] at hc
    rw [Statement.ifElse.sizeOf_spec]
    rcases hc with rfl | rfl | hc
    · rw [expr.sizeOf_spec]
      omega
    · rw [statement.sizeOf_spec]
      omega
    · have := sizeOf_lt_of_mem_option (fun _ => Nat.le_refl _) hc
      omega
  | forLoop init test update body s =>
    simp only [Statement.children, List.mem_append, List.mem_singleton] at hc
    rw [Statement.forLoop.sizeOf_spec]
    rcases hc with ((hc | hc) | hc) | rfl
    · have hinit : ∀ init : ForInit σ, sizeOf init.node ≤ 1 + sizeOf init := fun init => by
        rw [init.sizeOf_node]
        omega
      have := sizeOf_lt_of_mem_option hinit hc
      omega
    · have := sizeOf_lt_of_mem_option (fun _ => Nat.le_refl _) hc
      omega
    · have := sizeOf_lt_of_mem_option (fun _ => Nat.le_refl _) hc
      omega
    · rw [statement.sizeOf_spec]
      omega
  | whileLoop test body s =>
    simp only [Statement.children, List.mem_cons, List.not_mem_nil, or_false] at hc
    rw [Statement.whileLoop.sizeOf_spec]
    rcases hc with rfl | rfl
    · rw [expr.sizeOf_spec]
      omega
    · rw [statement.sizeOf_spec]
      omega
  | ret argument s =>
    have := sizeOf_lt_of_mem_option (fun _ => Nat.le_refl _) hc
    rw [Statement.ret.sizeOf_spec]
    omega
  | empty => cases hc

/-- A child is smaller than the node. -/
theorem sizeOf_child_lt {n c : Node σ} (hc : c ∈ n.children) : sizeOf c < sizeOf n := by
  cases n with
  | statement st => exact sizeOf_statement_child_lt hc
  | expr e => exact sizeOf_expr_child_lt hc
  | pattern p => exact sizeOf_pattern_child_lt hc
  | declaration d =>
    obtain ⟨kind, declarations, s⟩ := d
    simp only [children] at hc
    have := sizeOf_lt_of_mem_map (fun _ => Nat.le_refl _) hc
    rw [declaration.sizeOf_spec, VariableDeclaration.mk.sizeOf_spec]
    omega
  | declarator d =>
    obtain ⟨id, init, s⟩ := d
    simp only [children] at hc
    rw [declarator.sizeOf_spec, VariableDeclarator.mk.sizeOf_spec]
    rcases List.mem_cons.1 hc with rfl | hc
    · rw [ident.sizeOf_spec]
      omega
    · have := sizeOf_lt_of_mem_option (fun _ => Nat.le_refl _) hc
      omega
  | function f =>
    obtain ⟨id, params, body, generator, async, s⟩ := f
    simp only [children, List.mem_append, List.mem_singleton] at hc
    rw [function.sizeOf_spec, Func.mk.sizeOf_spec]
    rcases hc with (hc | hc) | rfl
    · have := sizeOf_lt_of_mem_option (fun _ => Nat.le_refl _) hc
      omega
    · have := sizeOf_lt_of_mem_map (fun _ => Nat.le_refl _) hc
      omega
    · rw [block.sizeOf_spec]
      omega
  | block b =>
    obtain ⟨body, s⟩ := b
    simp only [children] at hc
    have := sizeOf_lt_of_mem_map (fun _ => Nat.le_refl _) hc
    rw [block.sizeOf_spec, Block.mk.sizeOf_spec]
    omega
  | classDeclaration value =>
    obtain ⟨id, superClass, body, s⟩ := value
    simp only [children, heritage, List.mem_append, List.mem_cons, List.not_mem_nil, or_false] at hc
    rw [classDeclaration.sizeOf_spec, Class.mk.sizeOf_spec]
    rcases hc with (rfl | hc) | rfl
    · rw [ident.sizeOf_spec]
      omega
    · have := sizeOf_lt_of_mem_option (fun _ => Nat.le_refl _) hc
      omega
    · rw [classBody.sizeOf_spec]
      omega
  | classBody b =>
    obtain ⟨body, s⟩ := b
    simp only [children] at hc
    have := sizeOf_lt_of_mem_map (fun _ => Nat.le_refl _) hc
    rw [classBody.sizeOf_spec, ClassBody.mk.sizeOf_spec]
    omega
  | method m =>
    obtain ⟨key, value, kind, computed, static, s⟩ := m
    simp only [children, List.mem_cons, List.not_mem_nil, or_false] at hc
    have := key.sizeOf_node
    rw [method.sizeOf_spec, MethodDefinition.mk.sizeOf_spec]
    rcases hc with rfl | rfl
    · omega
    · rw [function.sizeOf_spec]
      omega
  | property p =>
    have := p.sizeOf_valueNode_le
    obtain ⟨key, value, kind, computed, shorthand, method, s⟩ := p
    simp only [children, List.mem_cons, List.not_mem_nil, or_false] at hc
    have := key.sizeOf_node
    rw [property.sizeOf_spec, Property.mk.sizeOf_spec]
    rcases hc with rfl | rfl <;> dsimp only at * <;> omega
  | patternProperty p =>
    obtain ⟨key, value, computed, shorthand, s⟩ := p
    simp only [children, List.mem_cons, List.not_mem_nil, or_false] at hc
    have := key.sizeOf_node
    rw [patternProperty.sizeOf_spec, PatternProperty.mk.sizeOf_spec]
    rcases hc with rfl | rfl
    · omega
    · rw [pattern.sizeOf_spec]
      omega
  | ident | literal | quasi => cases hc

/-- What a node has if its children have it, all nodes have. -/
theorem induct {motive : Node σ → Prop} (step : ∀ n, (∀ c ∈ n.children, motive c) → motive n)
    (n : Node σ) : motive n :=
  step n fun c _ => induct step c
termination_by sizeOf n
decreasing_by exact sizeOf_child_lt ‹_›

end Node

end JsSyntax
