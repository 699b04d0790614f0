import JsSyntax.Ast.Basic

/-! # Trees under a change of annotation

`map` changes every annotation of a tree and leaves its shape alone. Two trees that are equal when
all annotations are erased differ in their layout only.
-/

set_option autoImplicit false

namespace JsSyntax

variable {σ τ : Type} (f : σ → τ)

/-! ## Leaves -/

def Ident.map (id : Ident σ) : Ident τ := ⟨id.name, f id.span⟩

def Literal.map (l : Literal σ) : Literal τ := ⟨l.value, l.raw, f l.span⟩

def TemplateElement.map (e : TemplateElement σ) : TemplateElement τ :=
  ⟨e.cooked, e.raw, e.tail, f e.span⟩

/-! ## Nodes -/

mutual

def Expr.map : Expr σ → Expr τ
  | .literal value => .literal (value.map f)
  | .array elements s => .array (Expr.mapSlots elements) (f s)
  | .object properties s => .object (Property.mapAll properties) (f s)
  | .function value => .function value.map
  | .template quasis expressions s =>
    .template (quasis.map (TemplateElement.map f)) (Expr.mapAll expressions) (f s)
  | .ident id => .ident (id.map f)
  | .this s => .this (f s)
  | .super s => .super (f s)
  | .unary op argument s => .unary op argument.map (f s)
  | .binary op left right s => .binary op left.map right.map (f s)
  | .logical op left right s => .logical op left.map right.map (f s)
  | .conditional test consequent alternate s =>
    .conditional test.map consequent.map alternate.map (f s)
  | .assign op left right s => .assign op left.map right.map (f s)
  | .update op before argument s => .update op before argument.map (f s)
  | .await argument s => .await argument.map (f s)
  | .member object property computed s => .member object.map property.map computed (f s)
  | .call callee arguments s => .call callee.map (Expr.mapAll arguments) (f s)
  | .new callee arguments s => .new callee.map (Expr.mapAll arguments) (f s)

def Expr.mapAll : List (Expr σ) → List (Expr τ)
  | [] => []
  | e :: es => e.map :: Expr.mapAll es

def Expr.mapOption : Option (Expr σ) → Option (Expr τ)
  | none => none
  | some e => some e.map

def Expr.mapSlots : List (Option (Expr σ)) → List (Option (Expr τ))
  | [] => []
  | e :: es => Expr.mapOption e :: Expr.mapSlots es

def MemberProperty.map : MemberProperty σ → MemberProperty τ
  | .ident id => .ident (id.map f)
  | .expr value => .expr value.map

def PropertyKey.map : PropertyKey σ → PropertyKey τ
  | .ident id => .ident (id.map f)
  | .literal value => .literal (value.map f)
  | .computed value => .computed value.map

def Property.map : Property σ → Property τ
  | ⟨key, value, kind, computed, shorthand, method, s⟩ =>
    ⟨key.map, value.map, kind, computed, shorthand, method, f s⟩

def Property.mapAll : List (Property σ) → List (Property τ)
  | [] => []
  | p :: ps => p.map :: Property.mapAll ps

def Pattern.map : Pattern σ → Pattern τ
  | .ident id => .ident (id.map f)
  | .member object property computed s => .member object.map property.map computed (f s)
  | .array elements s => .array (Pattern.mapSlots elements) (f s)
  | .object properties s => .object (PatternProperty.mapAll properties) (f s)

def Pattern.mapOption : Option (Pattern σ) → Option (Pattern τ)
  | none => none
  | some p => some p.map

def Pattern.mapSlots : List (Option (Pattern σ)) → List (Option (Pattern τ))
  | [] => []
  | p :: ps => Pattern.mapOption p :: Pattern.mapSlots ps

def PatternProperty.map : PatternProperty σ → PatternProperty τ
  | ⟨key, value, computed, shorthand, s⟩ => ⟨key.map, value.map, computed, shorthand, f s⟩

def PatternProperty.mapAll : List (PatternProperty σ) → List (PatternProperty τ)
  | [] => []
  | p :: ps => p.map :: PatternProperty.mapAll ps

def Func.map : Func σ → Func τ
  | ⟨id, params, body, generator, async, s⟩ =>
    ⟨Option.map (Ident.map f) id, List.map (Ident.map f) params, body.map, generator, async, f s⟩

def Block.map : Block σ → Block τ
  | ⟨body, s⟩ => ⟨Statement.mapAll body, f s⟩

def Statement.map : Statement σ → Statement τ
  | .vars declaration => .vars declaration.map
  | .function declaration => .function declaration.map
  | .classDeclaration declaration => .classDeclaration declaration.map
  | .expression value s => .expression value.map (f s)
  | .block value => .block value.map
  | .ifElse test consequent alternate s =>
    .ifElse test.map consequent.map (Statement.mapOption alternate) (f s)
  | .forLoop init test update body s =>
    .forLoop (ForInit.mapOption init) (Expr.mapOption test) (Expr.mapOption update) body.map (f s)
  | .whileLoop test body s => .whileLoop test.map body.map (f s)
  | .ret argument s => .ret (Expr.mapOption argument) (f s)
  | .empty s => .empty (f s)

def Statement.mapAll : List (Statement σ) → List (Statement τ)
  | [] => []
  | s :: ss => s.map :: Statement.mapAll ss

def Statement.mapOption : Option (Statement σ) → Option (Statement τ)
  | none => none
  | some s => some s.map

def VariableDeclaration.map : VariableDeclaration σ → VariableDeclaration τ
  | ⟨kind, declarations, s⟩ => ⟨kind, VariableDeclarator.mapAll declarations, f s⟩

def VariableDeclarator.map : VariableDeclarator σ → VariableDeclarator τ
  | ⟨id, init, s⟩ => ⟨id.map f, Expr.mapOption init, f s⟩

def VariableDeclarator.mapAll : List (VariableDeclarator σ) → List (VariableDeclarator τ)
  | [] => []
  | d :: ds => d.map :: VariableDeclarator.mapAll ds

def ForInit.map : ForInit σ → ForInit τ
  | .vars declaration => .vars declaration.map
  | .expr value => .expr value.map

def ForInit.mapOption : Option (ForInit σ) → Option (ForInit τ)
  | none => none
  | some init => some init.map

def Class.map : Class σ → Class τ
  | ⟨id, superClass, body, s⟩ => ⟨id.map f, Expr.mapOption superClass, body.map, f s⟩

def ClassBody.map : ClassBody σ → ClassBody τ
  | ⟨body, s⟩ => ⟨MethodDefinition.mapAll body, f s⟩

def MethodDefinition.map : MethodDefinition σ → MethodDefinition τ
  | ⟨key, value, kind, computed, static, s⟩ => ⟨key.map, value.map, kind, computed, static, f s⟩

def MethodDefinition.mapAll : List (MethodDefinition σ) → List (MethodDefinition τ)
  | [] => []
  | m :: ms => m.map :: MethodDefinition.mapAll ms

end

/-! ## Lists and options -/

@[simp] theorem Expr.mapAll_eq_map (es : List (Expr σ)) :
    Expr.mapAll f es = es.map (Expr.map f) := by
  induction es with
  | nil => rfl
  | cons e es ih => simp [Expr.mapAll, ih]

@[simp] theorem Expr.mapOption_eq_map (e : Option (Expr σ)) :
    Expr.mapOption f e = Option.map (Expr.map f) e := by
  cases e <;> rfl

@[simp] theorem Expr.mapSlots_eq_map (es : List (Option (Expr σ))) :
    Expr.mapSlots f es = es.map (Option.map (Expr.map f)) := by
  induction es with
  | nil => rfl
  | cons e es ih => simp [Expr.mapSlots, ih]

@[simp] theorem Pattern.mapOption_eq_map (p : Option (Pattern σ)) :
    Pattern.mapOption f p = Option.map (Pattern.map f) p := by
  cases p <;> rfl

@[simp] theorem Pattern.mapSlots_eq_map (ps : List (Option (Pattern σ))) :
    Pattern.mapSlots f ps = ps.map (Option.map (Pattern.map f)) := by
  induction ps with
  | nil => rfl
  | cons p ps ih => simp [Pattern.mapSlots, ih]

@[simp] theorem Property.mapAll_eq_map (ps : List (Property σ)) :
    Property.mapAll f ps = ps.map (Property.map f) := by
  induction ps with
  | nil => rfl
  | cons p ps ih => simp [Property.mapAll, ih]

@[simp] theorem PatternProperty.mapAll_eq_map (ps : List (PatternProperty σ)) :
    PatternProperty.mapAll f ps = ps.map (PatternProperty.map f) := by
  induction ps with
  | nil => rfl
  | cons p ps ih => simp [PatternProperty.mapAll, ih]

@[simp] theorem Statement.mapAll_eq_map (ss : List (Statement σ)) :
    Statement.mapAll f ss = ss.map (Statement.map f) := by
  induction ss with
  | nil => rfl
  | cons s ss ih => simp [Statement.mapAll, ih]

@[simp] theorem Statement.mapOption_eq_map (s : Option (Statement σ)) :
    Statement.mapOption f s = Option.map (Statement.map f) s := by
  cases s <;> rfl

@[simp] theorem VariableDeclarator.mapAll_eq_map (ds : List (VariableDeclarator σ)) :
    VariableDeclarator.mapAll f ds = ds.map (VariableDeclarator.map f) := by
  induction ds with
  | nil => rfl
  | cons d ds ih => simp [VariableDeclarator.mapAll, ih]

@[simp] theorem ForInit.mapOption_eq_map (init : Option (ForInit σ)) :
    ForInit.mapOption f init = Option.map (ForInit.map f) init := by
  cases init <;> rfl

@[simp] theorem MethodDefinition.mapAll_eq_map (ms : List (MethodDefinition σ)) :
    MethodDefinition.mapAll f ms = ms.map (MethodDefinition.map f) := by
  induction ms with
  | nil => rfl
  | cons m ms ih => simp [MethodDefinition.mapAll, ih]

/-! ## Annotations -/

@[simp] theorem Expr.span_map (e : Expr σ) : (e.map f).span = f e.span := by
  cases e with
  | function value => cases value; simp [Expr.map, Func.map, Expr.span]
  | _ => simp [Expr.map, Expr.span, Ident.map, Literal.map]

@[simp] theorem Pattern.span_map (p : Pattern σ) : (p.map f).span = f p.span := by
  cases p <;> simp [Pattern.map, Pattern.span, Ident.map]

@[simp] theorem Statement.span_map (s : Statement σ) : (s.map f).span = f s.span := by
  cases s with
  | vars declaration =>
    cases declaration; simp [Statement.map, VariableDeclaration.map, Statement.span]
  | function declaration => cases declaration; simp [Statement.map, Func.map, Statement.span]
  | classDeclaration declaration =>
    cases declaration; simp [Statement.map, Class.map, Statement.span]
  | block value => cases value; simp [Statement.map, Block.map, Statement.span]
  | _ => simp [Statement.map, Statement.span]

/-! ## Trees without layout -/

/-- The tree without its annotations. -/
def Expr.erase (e : Expr σ) : Expr Unit := e.map fun _ => ()

def Pattern.erase (p : Pattern σ) : Pattern Unit := p.map fun _ => ()

def Statement.erase (s : Statement σ) : Statement Unit := s.map fun _ => ()

end JsSyntax
