import JsSyntax.Proofs.Json.Same
import JsSyntax.Proofs.Nodes.Formed
import JsSyntax.Proofs.Nodes.Induction

/-! # Nothing is lost in JSON

Programs that have the same JSON value are equal (`eq_of_toJson_same`). The type of a node tells the
kinds of nodes apart wherever different kinds may stand, but for three places: a name and a computed
name are told apart by the flag `computed`, the value of a literal by its lexeme, and what is left
out by `null`. That the flag and the lexeme can be relied on is what well-formedness says, so the
induction goes over sound trees.
-/

set_option autoImplicit false

namespace JsSyntax

/-! ## Types -/

def Expr.type {σ : Type} : Expr σ → String
  | .literal _ => "Literal"
  | .array .. => "ArrayExpression"
  | .object .. => "ObjectExpression"
  | .function _ => "FunctionExpression"
  | .template .. => "TemplateLiteral"
  | .ident _ => "Identifier"
  | .this _ => "ThisExpression"
  | .super _ => "Super"
  | .unary .. => "UnaryExpression"
  | .binary .. => "BinaryExpression"
  | .logical .. => "LogicalExpression"
  | .conditional .. => "ConditionalExpression"
  | .assign .. => "AssignmentExpression"
  | .update .. => "UpdateExpression"
  | .await .. => "AwaitExpression"
  | .member .. => "MemberExpression"
  | .call .. => "CallExpression"
  | .new .. => "NewExpression"

def Pattern.type {σ : Type} : Pattern σ → String
  | .ident _ => "Identifier"
  | .member .. => "MemberExpression"
  | .array .. => "ArrayPattern"
  | .object .. => "ObjectPattern"

def Statement.type {σ : Type} : Statement σ → String
  | .vars _ => "VariableDeclaration"
  | .function _ => "FunctionDeclaration"
  | .classDeclaration _ => "ClassDeclaration"
  | .expression .. => "ExpressionStatement"
  | .block _ => "BlockStatement"
  | .ifElse .. => "IfStatement"
  | .forLoop .. => "ForStatement"
  | .whileLoop .. => "WhileStatement"
  | .ret .. => "ReturnStatement"
  | .empty _ => "EmptyStatement"

theorem Func.type?_toJson (type : String) (f : Func Span) : (f.toJson type).type? = some type := by
  cases f
  rfl

theorem VariableDeclaration.type?_toJson (d : VariableDeclaration Span) :
    d.toJson.type? = some "VariableDeclaration" := by
  cases d
  rfl

theorem Expr.type?_toJson (e : Expr Span) : e.toJson.type? = some e.type := by
  cases e with
  | function f => exact f.type?_toJson _
  | _ => rfl

theorem Pattern.type?_toJson (p : Pattern Span) : p.toJson.type? = some p.type := by
  cases p <;> rfl

theorem Statement.type?_toJson (st : Statement Span) : st.toJson.type? = some st.type := by
  cases st with
  | vars d => exact d.type?_toJson
  | function f => exact f.type?_toJson _
  | classDeclaration c =>
    cases c
    rfl
  | block b =>
    cases b
    rfl
  | _ => rfl

theorem Expr.type_eq {a b : Expr Span} (h : a.toJson.Same b.toJson) : a.type = b.type := by
  simpa only [Expr.type?_toJson, Option.some_inj] using h.type?_eq

theorem Pattern.type_eq {a b : Pattern Span} (h : a.toJson.Same b.toJson) : a.type = b.type := by
  simpa only [Pattern.type?_toJson, Option.some_inj] using h.type?_eq

theorem Statement.type_eq {a b : Statement Span} (h : a.toJson.Same b.toJson) :
    a.type = b.type := by
  simpa only [Statement.type?_toJson, Option.some_inj] using h.type?_eq

theorem ForInit.hasType (init : ForInit Span) : ∃ type, init.toJson.type? = some type := by
  cases init with
  | vars d => exact ⟨_, d.type?_toJson⟩
  | expr e => exact ⟨_, e.type?_toJson⟩

theorem Expr.hasType (e : Expr Span) : ∃ type, e.toJson.type? = some type := ⟨_, e.type?_toJson⟩

theorem Pattern.hasType (p : Pattern Span) : ∃ type, p.toJson.type? = some type :=
  ⟨_, p.type?_toJson⟩

theorem Statement.hasType (st : Statement Span) : ∃ type, st.toJson.type? = some type :=
  ⟨_, st.type?_toJson⟩

/-- No expression is written as a declaration. -/
theorem Expr.type_ne_declaration {σ : Type} (e : Expr σ) : e.type ≠ "VariableDeclaration" := by
  cases e <;> simp [Expr.type]

/-- What is left out differs from what is there. -/
theorem Json.not_null_same {j : Json} (hj : ∃ type, j.type? = some type) :
    ¬ Same .null j ∧ ¬ Same j .null := by
  obtain ⟨type, hj⟩ := hj
  refine ⟨fun h => ?_, fun h => ?_⟩
  · exact Option.some_ne_none _ (hj.symm.trans h.type?_eq.symm)
  · exact Option.some_ne_none _ (hj.symm.trans h.type?_eq)

/-! ## Nodes that their JSON value tells -/

/-- Among the sound nodes of its kind, `a` is the only one with its JSON value. -/
def Told {α : Type} (node : α → Node Span) (json : α → Json) (a : α) : Prop :=
  ∀ b, (node b).Sound → (json a).Same (json b) → a = b

def Node.Told : Node Span → Prop
  | .statement a => JsSyntax.Told .statement Statement.toJson a
  | .declaration a => JsSyntax.Told .declaration VariableDeclaration.toJson a
  | .declarator a => JsSyntax.Told .declarator VariableDeclarator.toJson a
  | .function a => ∀ type, JsSyntax.Told .function (Func.toJson type) a
  | .block a => JsSyntax.Told .block Block.toJson a
  | .classDeclaration a => JsSyntax.Told .classDeclaration Class.toJson a
  | .classBody a => JsSyntax.Told .classBody ClassBody.toJson a
  | .method a => JsSyntax.Told .method MethodDefinition.toJson a
  | .property a => JsSyntax.Told .property Property.toJson a
  | .patternProperty a => JsSyntax.Told .patternProperty PatternProperty.toJson a
  | .expr a => JsSyntax.Told .expr Expr.toJson a
  | .pattern a => JsSyntax.Told .pattern Pattern.toJson a
  | .ident a => JsSyntax.Told .ident Ident.toJson a
  | .literal a => JsSyntax.Told .literal Literal.toJson a
  | .quasi a => JsSyntax.Told .quasi TemplateElement.toJson a

/-! ## Lists and what may be left out -/

section
variable {α : Type} {node : α → Node Span} {json : α → Json}
  (hnode : ∀ x, (node x).Told → Told node json x)
include hnode

theorem eq_of_all_told {allJson : List α → List Json} (hjson : ∀ as, allJson as = as.map json)
    {as bs : List α} (ha : ∀ c ∈ as.map node, c.Told) (hb : ∀ c ∈ bs.map node, c.Sound)
    (h : Json.Same (.arr (allJson as)) (.arr (allJson bs))) : as = bs := by
  have hitems := h.items
  rw [hjson, hjson, List.forall₂_map_left_iff, List.forall₂_map_right_iff] at hitems
  clear h
  induction hitems with
  | nil => rfl
  | @cons a b as bs h _ ih =>
    obtain ⟨ha, has⟩ := List.forall_mem_cons.1 ha
    obtain ⟨hb, hbs⟩ := List.forall_mem_cons.1 hb
    rw [hnode a ha b hb h, ih has hbs]

variable (htype : ∀ x, ∃ type, (json x).type? = some type) {optionJson : Option α → Json}
  (hoption : ∀ a, optionJson a = Json.ofOption json a)
include htype hoption

theorem eq_of_option_told {a b : Option α} (ha : ∀ c ∈ a.toList.map node, c.Told)
    (hb : ∀ c ∈ b.toList.map node, c.Sound) (h : (optionJson a).Same (optionJson b)) : a = b := by
  rw [hoption, hoption] at h
  match a, b with
  | none, none => rfl
  | none, some y => exact absurd h (Json.not_null_same (htype y)).1
  | some x, none => exact absurd h (Json.not_null_same (htype x)).2
  | some x, some y => rw [hnode x (ha _ (.head _)) y (hb _ (.head _)) h]

theorem eq_of_slots_told {slotsJson : List (Option α) → List Json}
    (hjson : ∀ as, slotsJson as = as.map optionJson) {as bs : List (Option α)}
    (ha : ∀ c ∈ as.filterMap (Option.map node), c.Told)
    (hb : ∀ c ∈ bs.filterMap (Option.map node), c.Sound)
    (h : Json.Same (.arr (slotsJson as)) (.arr (slotsJson bs))) : as = bs := by
  have hitems := h.items
  rw [hjson, hjson, List.forall₂_map_left_iff, List.forall₂_map_right_iff] at hitems
  clear h
  have hfilter : ∀ (x : Option α) xs, (x :: xs).filterMap (Option.map node) =
      x.toList.map node ++ xs.filterMap (Option.map node) := by
    rintro (_ | x) xs <;> rfl
  induction hitems with
  | nil => rfl
  | @cons a b as bs h _ ih =>
    rw [hfilter] at ha hb
    obtain ⟨ha, has⟩ := List.forall_mem_append.1 ha
    obtain ⟨hb, hbs⟩ := List.forall_mem_append.1 hb
    rw [eq_of_option_told hnode htype hoption ha hb h, ih has hbs]

end

theorem Expr.optionToJson_eq (a : Option (Expr Span)) :
    Expr.optionToJson a = Json.ofOption Expr.toJson a := by
  cases a <;> rfl

theorem Pattern.optionToJson_eq (a : Option (Pattern Span)) :
    Pattern.optionToJson a = Json.ofOption Pattern.toJson a := by
  cases a <;> rfl

theorem Statement.optionToJson_eq (a : Option (Statement Span)) :
    Statement.optionToJson a = Json.ofOption Statement.toJson a := by
  cases a <;> rfl

theorem ForInit.optionToJson_eq (a : Option (ForInit Span)) :
    ForInit.optionToJson a = Json.ofOption ForInit.toJson a := by
  cases a <;> rfl

/-- A function that treats the elements of a list one by one is a map. -/
theorem eq_map_of_cons {α β : Type} {f : α → β} {g : List α → List β} (hnil : g [] = [])
    (hcons : ∀ a as, g (a :: as) = f a :: g as) (as : List α) : g as = as.map f := by
  induction as with
  | nil => exact hnil
  | cons a as ih => rw [hcons, ih, List.map_cons]

theorem Expr.allToJson_eq_map (as : List (Expr Span)) :
    Expr.allToJson as = as.map Expr.toJson :=
  eq_map_of_cons rfl (fun _ _ => rfl) as

theorem Expr.slotsToJson_eq_map (as : List (Option (Expr Span))) :
    Expr.slotsToJson as = as.map Expr.optionToJson :=
  eq_map_of_cons rfl (fun _ _ => rfl) as

theorem Property.allToJson_eq_map (as : List (Property Span)) :
    Property.allToJson as = as.map Property.toJson :=
  eq_map_of_cons rfl (fun _ _ => rfl) as

theorem Pattern.slotsToJson_eq_map (as : List (Option (Pattern Span))) :
    Pattern.slotsToJson as = as.map Pattern.optionToJson :=
  eq_map_of_cons rfl (fun _ _ => rfl) as

theorem PatternProperty.allToJson_eq_map (as : List (PatternProperty Span)) :
    PatternProperty.allToJson as = as.map PatternProperty.toJson :=
  eq_map_of_cons rfl (fun _ _ => rfl) as

theorem Statement.allToJson_eq_map (as : List (Statement Span)) :
    Statement.allToJson as = as.map Statement.toJson :=
  eq_map_of_cons rfl (fun _ _ => rfl) as

theorem VariableDeclarator.allToJson_eq_map (as : List (VariableDeclarator Span)) :
    VariableDeclarator.allToJson as = as.map VariableDeclarator.toJson :=
  eq_map_of_cons rfl (fun _ _ => rfl) as

theorem MethodDefinition.allToJson_eq_map (as : List (MethodDefinition Span)) :
    MethodDefinition.allToJson as = as.map MethodDefinition.toJson :=
  eq_map_of_cons rfl (fun _ _ => rfl) as

/-! ## Expressions -/

theorem MemberProperty.eq_of_told {a b : MemberProperty Span} (ha : a.node.Told)
    (hb : b.node.Sound) (hc : a.isComputed = b.isComputed) (h : a.toJson.Same b.toJson) :
    a = b := by
  match a, b with
  | .ident _, .ident _ => exact congrArg _ (Ident.eq_of_same h)
  | .expr _, .expr b => exact congrArg _ (ha b hb h)

theorem PropertyKey.eq_of_told {a b : PropertyKey Span} (ha : a.node.Told) (hb : b.node.Sound)
    (hc : a.isComputed = b.isComputed) (h : a.toJson.Same b.toJson) : a = b := by
  match a, b with
  | .ident _, .ident _ => exact congrArg _ (Ident.eq_of_same h)
  | .literal _, .literal l => exact congrArg _ (ha l hb h)
  | .computed _, .computed b => exact congrArg _ (ha b hb h)
  | .ident _, .literal _ => simpa using (h.field "type" rfl rfl).str_eq
  | .literal _, .ident _ => simpa using (h.field "type" rfl rfl).str_eq

theorem Expr.told {a : Expr Span} (ha : (Node.expr a).Sound) (hc : ∀ c ∈ a.children, c.Told) :
    Told .expr Expr.toJson a := by
  intro b hb h
  have ht := Expr.type_eq h
  cases a with
  | literal l =>
    cases b with
    | literal l' =>
      obtain rfl := hc (.literal l) (.head _) l' (hb.child (.head _)) h
      rfl
    | _ => simp [Expr.type] at ht
  | array elements s =>
    cases b with
    | array elements' s' =>
      obtain rfl := eq_of_slots_told (fun _ => id) Expr.hasType Expr.optionToJson_eq
        Expr.slotsToJson_eq_map hc (fun _ => hb.child) (h.field "elements" rfl rfl)
      obtain rfl : s = s' := Span.eq_of_same (h.field "span" rfl rfl)
      rfl
    | _ => simp [Expr.type] at ht
  | object properties s =>
    cases b with
    | object properties' s' =>
      obtain rfl := eq_of_all_told (fun _ => id) Property.allToJson_eq_map hc (fun _ => hb.child)
        (h.field "properties" rfl rfl)
      obtain rfl : s = s' := Span.eq_of_same (h.field "span" rfl rfl)
      rfl
    | _ => simp [Expr.type] at ht
  | function f =>
    cases b with
    | function f' =>
      obtain rfl := hc (.function f) (.head _) _ f' (hb.child (.head _)) h
      rfl
    | _ => simp [Expr.type] at ht
  | template quasis expressions s =>
    cases b with
    | template quasis' expressions' s' =>
      obtain rfl : quasis = quasis' :=
        Json.eq_of_items_same TemplateElement.eq_of_same (h.field "quasis" rfl rfl)
      -- A template holds no expressions.
      obtain ⟨-, -, -, rfl⟩ := ha.self
      obtain ⟨-, -, -, rfl⟩ := hb.self
      obtain rfl : s = s' := Span.eq_of_same (h.field "span" rfl rfl)
      rfl
    | _ => simp [Expr.type] at ht
  | ident id =>
    cases b with
    | ident id' => rw [Ident.eq_of_same h]
    | _ => simp [Expr.type] at ht
  | this s =>
    cases b with
    | this s' => rw [Span.eq_of_same (h.field "span" rfl rfl)]
    | _ => simp [Expr.type] at ht
  | super s =>
    cases b with
    | super s' => rw [Span.eq_of_same (h.field "span" rfl rfl)]
    | _ => simp [Expr.type] at ht
  | unary op argument s =>
    cases b with
    | unary op' argument' s' =>
      obtain rfl : op = op' := UnaryOp.symbol_inj (h.field "operator" rfl rfl).str_eq
      obtain rfl := hc (.expr argument) (.head _) argument' (hb.child (.head _))
        (h.field "argument" rfl rfl)
      obtain rfl : s = s' := Span.eq_of_same (h.field "span" rfl rfl)
      rfl
    | _ => simp [Expr.type] at ht
  | binary op left right s =>
    cases b with
    | binary op' left' right' s' =>
      obtain rfl : op = op' := BinaryOp.symbol_inj (h.field "operator" rfl rfl).str_eq
      obtain rfl := hc (.expr left) (.head _) left' (hb.child (.head _)) (h.field "left" rfl rfl)
      obtain rfl := hc (.expr right) (.tail _ (.head _)) right' (hb.child (.tail _ (.head _)))
        (h.field "right" rfl rfl)
      obtain rfl : s = s' := Span.eq_of_same (h.field "span" rfl rfl)
      rfl
    | _ => simp [Expr.type] at ht
  | logical op left right s =>
    cases b with
    | logical op' left' right' s' =>
      obtain rfl : op = op' := LogicalOp.symbol_inj (h.field "operator" rfl rfl).str_eq
      obtain rfl := hc (.expr left) (.head _) left' (hb.child (.head _)) (h.field "left" rfl rfl)
      obtain rfl := hc (.expr right) (.tail _ (.head _)) right' (hb.child (.tail _ (.head _)))
        (h.field "right" rfl rfl)
      obtain rfl : s = s' := Span.eq_of_same (h.field "span" rfl rfl)
      rfl
    | _ => simp [Expr.type] at ht
  | conditional test consequent alternate s =>
    cases b with
    | conditional test' consequent' alternate' s' =>
      obtain rfl := hc (.expr test) (.head _) test' (hb.child (.head _)) (h.field "test" rfl rfl)
      obtain rfl := hc (.expr consequent) (.tail _ (.head _)) consequent'
        (hb.child (.tail _ (.head _))) (h.field "consequent" rfl rfl)
      obtain rfl := hc (.expr alternate) (.tail _ (.tail _ (.head _))) alternate'
        (hb.child (.tail _ (.tail _ (.head _)))) (h.field "alternate" rfl rfl)
      obtain rfl : s = s' := Span.eq_of_same (h.field "span" rfl rfl)
      rfl
    | _ => simp [Expr.type] at ht
  | assign op left right s =>
    cases b with
    | assign op' left' right' s' =>
      obtain rfl : op = op' := AssignmentOp.symbol_inj (h.field "operator" rfl rfl).str_eq
      obtain rfl := hc (.pattern left) (.head _) left' (hb.child (.head _))
        (h.field "left" rfl rfl)
      obtain rfl := hc (.expr right) (.tail _ (.head _)) right' (hb.child (.tail _ (.head _)))
        (h.field "right" rfl rfl)
      obtain rfl : s = s' := Span.eq_of_same (h.field "span" rfl rfl)
      rfl
    | _ => simp [Expr.type] at ht
  | update op before argument s =>
    cases b with
    | update op' before' argument' s' =>
      obtain rfl : op = op' := UpdateOp.symbol_inj (h.field "operator" rfl rfl).str_eq
      obtain rfl : before = before' := (h.field "prefix" rfl rfl).bool_eq
      obtain rfl := hc (.expr argument) (.head _) argument' (hb.child (.head _))
        (h.field "argument" rfl rfl)
      obtain rfl : s = s' := Span.eq_of_same (h.field "span" rfl rfl)
      rfl
    | _ => simp [Expr.type] at ht
  | await argument s =>
    cases b with
    | await argument' s' =>
      obtain rfl := hc (.expr argument) (.head _) argument' (hb.child (.head _))
        (h.field "argument" rfl rfl)
      obtain rfl : s = s' := Span.eq_of_same (h.field "span" rfl rfl)
      rfl
    | _ => simp [Expr.type] at ht
  | member object property computed s =>
    cases b with
    | member object' property' computed' s' =>
      obtain rfl : computed = computed' := (h.field "computed" rfl rfl).bool_eq
      obtain rfl := hc (.expr object) (.head _) object' (hb.child (.head _))
        (h.field "object" rfl rfl)
      obtain rfl : property = property' := MemberProperty.eq_of_told (hc _ (.tail _ (.head _)))
        (hb.child (.tail _ (.head _))) (ha.self.symm.trans hb.self) (h.field "property" rfl rfl)
      obtain rfl : s = s' := Span.eq_of_same (h.field "span" rfl rfl)
      rfl
    | _ => simp [Expr.type] at ht
  | call callee arguments s =>
    cases b with
    | call callee' arguments' s' =>
      obtain rfl := hc (.expr callee) (.head _) callee' (hb.child (.head _))
        (h.field "callee" rfl rfl)
      obtain rfl := eq_of_all_told (fun _ => id) Expr.allToJson_eq_map
        (fun _ hx => hc _ (.tail _ hx)) (fun _ hx => hb.child (.tail _ hx))
        (h.field "arguments" rfl rfl)
      obtain rfl : s = s' := Span.eq_of_same (h.field "span" rfl rfl)
      rfl
    | _ => simp [Expr.type] at ht
  | new callee arguments s =>
    cases b with
    | new callee' arguments' s' =>
      obtain rfl := hc (.expr callee) (.head _) callee' (hb.child (.head _))
        (h.field "callee" rfl rfl)
      obtain rfl := eq_of_all_told (fun _ => id) Expr.allToJson_eq_map
        (fun _ hx => hc _ (.tail _ hx)) (fun _ hx => hb.child (.tail _ hx))
        (h.field "arguments" rfl rfl)
      obtain rfl : s = s' := Span.eq_of_same (h.field "span" rfl rfl)
      rfl
    | _ => simp [Expr.type] at ht

/-! ## Properties and patterns -/

/-- The value of a property need be no node of its own. -/
theorem Property.value_sound {p : Property Span} (h : p.valueNode.Sound) :
    (Node.expr p.value).Sound := by
  unfold Property.valueNode at h
  split at h
  · exact h
  · split at h
    · next f hf =>
      rw [hf]
      exact .of_children trivial (List.forall_mem_singleton.2 h)
    · exact h

theorem Property.value_told {p : Property Span} (hs : p.valueNode.Sound) (h : p.valueNode.Told) :
    (Node.expr p.value).Told := by
  have hvalue := Property.value_sound hs
  unfold Property.valueNode at h
  split at h
  · exact h
  · split at h
    · next f hf =>
      rw [hf] at hvalue ⊢
      exact Expr.told hvalue (List.forall_mem_singleton.2 h)
    · exact h

theorem Property.told {p : Property Span} (hp : (Node.property p).Sound)
    (hc : ∀ c ∈ (Node.property p).children, c.Told) : Told .property Property.toJson p := by
  intro q hq h
  have hvalue := Property.value_told (hp.child (.tail _ (.head _))) (hc _ (.tail _ (.head _)))
  have hvalue' := Property.value_sound (hq.child (.tail _ (.head _)))
  obtain ⟨key, value, kind, computed, shorthand, method, s⟩ := p
  obtain ⟨key', value', kind', computed', shorthand', method', s'⟩ := q
  obtain rfl : computed = computed' := (h.field "computed" rfl rfl).bool_eq
  obtain rfl : key = key' := PropertyKey.eq_of_told (hc _ (.head _)) (hq.child (.head _))
    (hp.self.computed.symm.trans hq.self.computed) (h.field "key" rfl rfl)
  obtain rfl := hvalue value' hvalue' (h.field "value" rfl rfl)
  obtain rfl : kind = kind' := PropertyKind.name_inj (h.field "kind" rfl rfl).str_eq
  obtain rfl : shorthand = shorthand' := (h.field "shorthand" rfl rfl).bool_eq
  obtain rfl : method = method' := (h.field "method" rfl rfl).bool_eq
  obtain rfl : s = s' := Span.eq_of_same (h.field "span" rfl rfl)
  rfl

theorem PatternProperty.told {p : PatternProperty Span} (hp : (Node.patternProperty p).Sound)
    (hc : ∀ c ∈ (Node.patternProperty p).children, c.Told) :
    Told .patternProperty PatternProperty.toJson p := by
  intro q hq h
  obtain ⟨key, value, computed, shorthand, s⟩ := p
  obtain ⟨key', value', computed', shorthand', s'⟩ := q
  obtain rfl : computed = computed' := (h.field "computed" rfl rfl).bool_eq
  obtain rfl : key = key' := PropertyKey.eq_of_told (hc _ (.head _)) (hq.child (.head _))
    (hp.self.computed.symm.trans hq.self.computed) (h.field "key" rfl rfl)
  obtain rfl := hc (.pattern value) (.tail _ (.head _)) value' (hq.child (.tail _ (.head _)))
    (h.field "value" rfl rfl)
  obtain rfl : shorthand = shorthand' := (h.field "shorthand" rfl rfl).bool_eq
  obtain rfl : s = s' := Span.eq_of_same (h.field "span" rfl rfl)
  rfl

theorem Pattern.told {a : Pattern Span} (ha : (Node.pattern a).Sound)
    (hc : ∀ c ∈ a.children, c.Told) : Told .pattern Pattern.toJson a := by
  intro b hb h
  have ht := Pattern.type_eq h
  cases a with
  | ident id =>
    cases b with
    | ident id' => rw [Ident.eq_of_same h]
    | _ => simp [Pattern.type] at ht
  | member object property computed s =>
    cases b with
    | member object' property' computed' s' =>
      obtain rfl : computed = computed' := (h.field "computed" rfl rfl).bool_eq
      obtain rfl := hc (.expr object) (.head _) object' (hb.child (.head _))
        (h.field "object" rfl rfl)
      obtain rfl : property = property' := MemberProperty.eq_of_told (hc _ (.tail _ (.head _)))
        (hb.child (.tail _ (.head _))) (ha.self.symm.trans hb.self) (h.field "property" rfl rfl)
      obtain rfl : s = s' := Span.eq_of_same (h.field "span" rfl rfl)
      rfl
    | _ => simp [Pattern.type] at ht
  | array elements s =>
    cases b with
    | array elements' s' =>
      obtain rfl := eq_of_slots_told (fun _ => id) Pattern.hasType Pattern.optionToJson_eq
        Pattern.slotsToJson_eq_map hc (fun _ => hb.child) (h.field "elements" rfl rfl)
      obtain rfl : s = s' := Span.eq_of_same (h.field "span" rfl rfl)
      rfl
    | _ => simp [Pattern.type] at ht
  | object properties s =>
    cases b with
    | object properties' s' =>
      obtain rfl := eq_of_all_told (fun _ => id) PatternProperty.allToJson_eq_map hc
        (fun _ => hb.child) (h.field "properties" rfl rfl)
      obtain rfl : s = s' := Span.eq_of_same (h.field "span" rfl rfl)
      rfl
    | _ => simp [Pattern.type] at ht

/-! ## Functions and classes -/

theorem Func.told {f : Func Span} (hc : ∀ c ∈ (Node.function f).children, c.Told) (type : String) :
    Told .function (Func.toJson type) f := by
  intro g hg h
  have hbody : (Node.block f.body).Told := hc _ (by simp [Node.children])
  have hbody' : (Node.block g.body).Sound := hg.child (by simp [Node.children])
  obtain ⟨id, params, body, generator, async, s⟩ := f
  obtain ⟨id', params', body', generator', async', s'⟩ := g
  obtain rfl : id = id' := Ident.eq_of_option_same (h.field "id" rfl rfl)
  obtain rfl : params = params' :=
    Json.eq_of_items_same Ident.eq_of_same (h.field "params" rfl rfl)
  obtain rfl := hbody body' hbody' (h.field "body" rfl rfl)
  obtain rfl : generator = generator' := (h.field "generator" rfl rfl).bool_eq
  obtain rfl : async = async' := (h.field "async" rfl rfl).bool_eq
  obtain rfl : s = s' := Span.eq_of_same (h.field "span" rfl rfl)
  rfl

theorem Block.told {b : Block Span} (hc : ∀ c ∈ (Node.block b).children, c.Told) :
    Told .block Block.toJson b := by
  intro b' hb' h
  obtain ⟨body, s⟩ := b
  obtain ⟨body', s'⟩ := b'
  obtain rfl := eq_of_all_told (fun _ => id) Statement.allToJson_eq_map hc (fun _ => hb'.child)
    (h.field "body" rfl rfl)
  obtain rfl : s = s' := Span.eq_of_same (h.field "span" rfl rfl)
  rfl

theorem MethodDefinition.told {m : MethodDefinition Span} (hm : (Node.method m).Sound)
    (hc : ∀ c ∈ (Node.method m).children, c.Told) : Told .method MethodDefinition.toJson m := by
  intro m' hm' h
  obtain ⟨key, value, kind, computed, static, s⟩ := m
  obtain ⟨key', value', kind', computed', static', s'⟩ := m'
  obtain rfl : computed = computed' := (h.field "computed" rfl rfl).bool_eq
  obtain rfl : key = key' := PropertyKey.eq_of_told (hc _ (.head _)) (hm'.child (.head _))
    (hm.self.computed.symm.trans hm'.self.computed) (h.field "key" rfl rfl)
  obtain rfl := hc (.function value) (.tail _ (.head _)) _ value' (hm'.child (.tail _ (.head _)))
    (h.field "value" rfl rfl)
  obtain rfl : kind = kind' := MethodKind.name_inj (h.field "kind" rfl rfl).str_eq
  obtain rfl : static = static' := (h.field "static" rfl rfl).bool_eq
  obtain rfl : s = s' := Span.eq_of_same (h.field "span" rfl rfl)
  rfl

theorem ClassBody.told {b : ClassBody Span} (hc : ∀ c ∈ (Node.classBody b).children, c.Told) :
    Told .classBody ClassBody.toJson b := by
  intro b' hb' h
  obtain ⟨body, s⟩ := b
  obtain ⟨body', s'⟩ := b'
  obtain rfl := eq_of_all_told (fun _ => id) MethodDefinition.allToJson_eq_map hc
    (fun _ => hb'.child) (h.field "body" rfl rfl)
  obtain rfl : s = s' := Span.eq_of_same (h.field "span" rfl rfl)
  rfl

/-- The children of a class behind its name. -/
theorem Node.children_classDeclaration {P : Node Span → Prop} {c : Class Span}
    (h : ∀ n ∈ (Node.classDeclaration c).children, P n) :
    (∀ n ∈ c.superClass.toList.map .expr, P n) ∧ P (.classBody c.body) := by
  obtain ⟨-, h⟩ := List.forall_mem_cons.1 h
  simpa only [List.append_eq, Node.heritage, List.forall_mem_append, List.forall_mem_singleton]
    using h

theorem Class.told {c : Class Span} (hc : ∀ n ∈ (Node.classDeclaration c).children, n.Told) :
    Told .classDeclaration Class.toJson c := by
  intro c' hc' h
  obtain ⟨hsuper, hbody⟩ := Node.children_classDeclaration hc
  obtain ⟨hsuper', hbody'⟩ := Node.children_classDeclaration fun _ => hc'.child
  obtain ⟨name, superClass, body, s⟩ := c
  obtain ⟨name', superClass', body', s'⟩ := c'
  obtain rfl : name = name' := Ident.eq_of_same (h.field "id" rfl rfl)
  obtain rfl := eq_of_option_told (fun (e : Expr Span) (he : (Node.expr e).Told) => he)
    Expr.hasType Expr.optionToJson_eq hsuper hsuper' (h.field "superClass" rfl rfl)
  obtain rfl := hbody body' hbody' (h.field "body" rfl rfl)
  obtain rfl : s = s' := Span.eq_of_same (h.field "span" rfl rfl)
  rfl

/-! ## Statements -/

theorem VariableDeclarator.told {d : VariableDeclarator Span}
    (hc : ∀ c ∈ (Node.declarator d).children, c.Told) :
    Told .declarator VariableDeclarator.toJson d := by
  intro d' hd' h
  obtain ⟨name, init, s⟩ := d
  obtain ⟨name', init', s'⟩ := d'
  obtain rfl : name = name' := Ident.eq_of_same (h.field "id" rfl rfl)
  obtain rfl := eq_of_option_told (fun (e : Expr Span) (he : (Node.expr e).Told) => he)
    Expr.hasType Expr.optionToJson_eq (fun _ hx => hc _ (.tail _ hx))
    (fun _ hx => hd'.child (.tail _ hx)) (h.field "init" rfl rfl)
  obtain rfl : s = s' := Span.eq_of_same (h.field "span" rfl rfl)
  rfl

theorem VariableDeclaration.told {d : VariableDeclaration Span}
    (hc : ∀ c ∈ (Node.declaration d).children, c.Told) :
    Told .declaration VariableDeclaration.toJson d := by
  intro d' hd' h
  obtain ⟨kind, declarations, s⟩ := d
  obtain ⟨kind', declarations', s'⟩ := d'
  obtain rfl : kind = kind' := VariableKind.keyword_inj (h.field "kind" rfl rfl).str_eq
  obtain rfl := eq_of_all_told (fun _ => id) VariableDeclarator.allToJson_eq_map hc
    (fun _ => hd'.child) (h.field "declarations" rfl rfl)
  obtain rfl : s = s' := Span.eq_of_same (h.field "span" rfl rfl)
  rfl

theorem ForInit.told {a : ForInit Span} (ha : a.node.Told) : Told ForInit.node ForInit.toJson a := by
  intro b hb h
  match a, b with
  | .vars _, .vars d => rw [ha d hb h]
  | .expr _, .expr e => rw [ha e hb h]
  | .vars d, .expr e =>
    have ht : some "VariableDeclaration" = some e.type :=
      d.type?_toJson.symm.trans (h.type?_eq.trans e.type?_toJson)
    exact absurd (Option.some.inj ht).symm e.type_ne_declaration
  | .expr e, .vars d =>
    have ht : some e.type = some "VariableDeclaration" :=
      e.type?_toJson.symm.trans (h.type?_eq.trans d.type?_toJson)
    exact absurd (Option.some.inj ht) e.type_ne_declaration

/-- The children of a loop. -/
theorem Node.children_forLoop {P : Node Span → Prop} {init : Option (ForInit Span)}
    {test update : Option (Expr Span)} {body : Statement Span} {s : Span}
    (h : ∀ n ∈ (Node.statement (.forLoop init test update body s)).children, P n) :
    (∀ n ∈ init.toList.map ForInit.node, P n) ∧ (∀ n ∈ test.toList.map .expr, P n) ∧
      (∀ n ∈ update.toList.map .expr, P n) ∧ P (.statement body) := by
  simpa only [Node.children, Statement.children, List.forall_mem_append, List.forall_mem_singleton,
    and_assoc] using h

theorem Statement.told {a : Statement Span} (hc : ∀ c ∈ a.children, c.Told) :
    Told .statement Statement.toJson a := by
  intro b hb h
  have ht := Statement.type_eq h
  cases a with
  | vars d =>
    cases b with
    | vars d' => rw [hc (.declaration d) (.head _) d' (hb.child (.head _)) h]
    | _ => simp [Statement.type] at ht
  | function f =>
    cases b with
    | function f' => rw [hc (.function f) (.head _) _ f' (hb.child (.head _)) h]
    | _ => simp [Statement.type] at ht
  | classDeclaration c =>
    cases b with
    | classDeclaration c' => rw [hc (.classDeclaration c) (.head _) c' (hb.child (.head _)) h]
    | _ => simp [Statement.type] at ht
  | expression value s =>
    cases b with
    | expression value' s' =>
      obtain rfl := hc (.expr value) (.head _) value' (hb.child (.head _))
        (h.field "expression" rfl rfl)
      obtain rfl : s = s' := Span.eq_of_same (h.field "span" rfl rfl)
      rfl
    | _ => simp [Statement.type] at ht
  | block value =>
    cases b with
    | block value' => rw [hc (.block value) (.head _) value' (hb.child (.head _)) h]
    | _ => simp [Statement.type] at ht
  | ifElse test consequent alternate s =>
    cases b with
    | ifElse test' consequent' alternate' s' =>
      obtain rfl := hc (.expr test) (.head _) test' (hb.child (.head _)) (h.field "test" rfl rfl)
      obtain rfl := hc (.statement consequent) (.tail _ (.head _)) consequent'
        (hb.child (.tail _ (.head _))) (h.field "consequent" rfl rfl)
      obtain rfl := eq_of_option_told (fun _ => id) Statement.hasType Statement.optionToJson_eq
        (fun _ hx => hc _ (.tail _ (.tail _ hx))) (fun _ hx => hb.child (.tail _ (.tail _ hx)))
        (h.field "alternate" rfl rfl)
      obtain rfl : s = s' := Span.eq_of_same (h.field "span" rfl rfl)
      rfl
    | _ => simp [Statement.type] at ht
  | forLoop init test update body s =>
    cases b with
    | forLoop init' test' update' body' s' =>
      obtain ⟨hinit, htest, hupdate, hbody⟩ := Node.children_forLoop (s := s) hc
      obtain ⟨hinit', htest', hupdate', hbody'⟩ := Node.children_forLoop (s := s') fun _ => hb.child
      obtain rfl := eq_of_option_told (fun _ => ForInit.told) ForInit.hasType
        ForInit.optionToJson_eq hinit hinit' (h.field "init" rfl rfl)
      obtain rfl := eq_of_option_told (fun _ => id) Expr.hasType Expr.optionToJson_eq htest htest'
        (h.field "test" rfl rfl)
      obtain rfl := eq_of_option_told (fun _ => id) Expr.hasType Expr.optionToJson_eq hupdate
        hupdate' (h.field "update" rfl rfl)
      obtain rfl := hbody body' hbody' (h.field "body" rfl rfl)
      obtain rfl : s = s' := Span.eq_of_same (h.field "span" rfl rfl)
      rfl
    | _ => simp [Statement.type] at ht
  | whileLoop test body s =>
    cases b with
    | whileLoop test' body' s' =>
      obtain rfl := hc (.expr test) (.head _) test' (hb.child (.head _)) (h.field "test" rfl rfl)
      obtain rfl := hc (.statement body) (.tail _ (.head _)) body' (hb.child (.tail _ (.head _)))
        (h.field "body" rfl rfl)
      obtain rfl : s = s' := Span.eq_of_same (h.field "span" rfl rfl)
      rfl
    | _ => simp [Statement.type] at ht
  | ret argument s =>
    cases b with
    | ret argument' s' =>
      obtain rfl := eq_of_option_told (fun _ => id) Expr.hasType Expr.optionToJson_eq hc
        (fun _ => hb.child) (h.field "argument" rfl rfl)
      obtain rfl : s = s' := Span.eq_of_same (h.field "span" rfl rfl)
      rfl
    | _ => simp [Statement.type] at ht
  | empty s =>
    cases b with
    | empty s' => rw [Span.eq_of_same (h.field "span" rfl rfl)]
    | _ => simp [Statement.type] at ht

/-! ## Trees and programs -/

/-- A sound node is told by its JSON value, if its children are. -/
theorem Node.told (n : Node Span) : n.Sound → n.Told := by
  induction n using Node.induct with
  | step n ih =>
    intro h
    have hc : ∀ c ∈ n.children, c.Told := fun c hc => ih c hc (h.child hc)
    cases n with
    | statement a => exact Statement.told hc
    | declaration a => exact VariableDeclaration.told hc
    | declarator a => exact VariableDeclarator.told hc
    | function a => exact Func.told hc
    | block a => exact Block.told hc
    | classDeclaration a => exact Class.told hc
    | classBody a => exact ClassBody.told hc
    | method a => exact MethodDefinition.told h hc
    | property a => exact Property.told h hc
    | patternProperty a => exact PatternProperty.told h hc
    | expr a => exact Expr.told h hc
    | pattern a => exact Pattern.told h hc
    | ident a => exact fun b _ => Ident.eq_of_same
    | literal a => exact fun b hb => Literal.eq_of_same h.self hb.self
    | quasi a => exact fun b _ => TemplateElement.eq_of_same

/-- Programs that are written as the same JSON value are equal: no node, comment, error or span is
lost. -/
theorem eq_of_toJson_same (source source' : String)
    (h : (parse source).toJson.Same (parse source').toJson) : parse source = parse source' := by
  have hsound : ∀ source, ∀ c ∈ (parse source).body.map .statement, Node.Sound c := by
    intro source c hc
    obtain ⟨st, hst, rfl⟩ := List.mem_map.1 hc
    exact parseWith_sound nestingLimit source st hst
  have hbody : (parse source).body = (parse source').body :=
    eq_of_all_told (fun _ => id) Statement.allToJson_eq_map
      (fun c hc => c.told (hsound source c hc)) (hsound source') (h.field "body" rfl rfl)
  have hcomments : (parse source).comments = (parse source').comments :=
    Json.eq_of_items_same Token.eq_of_same (h.field "comments" rfl rfl)
  have herrors : (parse source).errors = (parse source').errors :=
    Json.eq_of_items_same Diagnostic.eq_of_same (h.field "errors" rfl rfl)
  have hspan : (parse source).span = (parse source').span :=
    Span.eq_of_same (h.field "span" rfl rfl)
  calc parse source
      = ⟨(parse source).body, (parse source).comments, (parse source).errors,
          (parse source).span⟩ := rfl
    _ = parse source' := by rw [hbody, hcomments, herrors, hspan]

/-- A blank behind the last token is not part of the program. -/
theorem eq_of_toJson_same_blank :
    (parse "a;").toJson.Same (parse "a; ").toJson ∧ parse "a;" = parse "a; " := by
  have h : (parse "a;").toJson.Same (parse "a; ").toJson := by
    rw [show parse "a; " = parse "a;" by rfl]
    exact .refl _
  exact ⟨h, eq_of_toJson_same "a;" "a; " h⟩

end JsSyntax
