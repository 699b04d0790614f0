import JsSyntax.Ast.Statements
import JsSyntax.Proofs.Parse.Threads

/-! # The statements in results

The statements in the values that routines give. A tree has the statements of the trees that it is
built from, in the order in which these are given.
-/

set_option autoImplicit false

namespace JsSyntax

/-! ## Statements in patterns -/

section
variable {σ : Type}

mutual

/-- A pattern holds the statements of the expression it is written as. -/
theorem Pattern.statements_toExpr : (p : Pattern σ) → p.toExpr.statements = p.statements
  | .ident _ => rfl
  | .member .. => rfl
  | .array elements _ => Pattern.slotsStatements_toExprs elements
  | .object properties _ => PatternProperty.allStatements_toProperties properties

theorem Pattern.slotsStatements_toExprs : (ps : List (Option (Pattern σ))) →
    Expr.slotsStatements (Pattern.slotsToExprs ps) = Pattern.slotsStatements ps
  | [] => rfl
  | none :: ps => Pattern.slotsStatements_toExprs ps
  | some p :: ps => by
    show p.toExpr.statements ++ Expr.slotsStatements (Pattern.slotsToExprs ps) = _
    rw [Pattern.statements_toExpr p, Pattern.slotsStatements_toExprs ps]
    rfl

theorem PatternProperty.allStatements_toProperties : (ps : List (PatternProperty σ)) →
    Property.allStatements (PatternProperty.allToProperties ps) = PatternProperty.allStatements ps
  | [] => rfl
  | ⟨key, value, _, _, _⟩ :: ps => by
    show (key.statements ++ value.toExpr.statements) ++
      Property.allStatements (PatternProperty.allToProperties ps) = _
    rw [Pattern.statements_toExpr value, PatternProperty.allStatements_toProperties ps]
    rfl

end

end

namespace Parse

/-! ## Statements in values -/

instance : Carries (Statement Span) (Expr Span) := ⟨Expr.statements⟩

instance : Carries (Statement Span) (PropertyKey Span) := ⟨PropertyKey.statements⟩

instance : Carries (Statement Span) (Property Span) := ⟨Property.statements⟩

instance : Carries (Statement Span) (Pattern Span) := ⟨Pattern.statements⟩

instance : Carries (Statement Span) (Func Span) := ⟨Func.statements⟩

instance : Carries (Statement Span) (Block Span) := ⟨Block.statements⟩

instance : Carries (Statement Span) (Statement Span) := ⟨Statement.statements⟩

instance : Carries (Statement Span) (VariableDeclaration Span) := ⟨VariableDeclaration.statements⟩

instance : Carries (Statement Span) (VariableDeclarator Span) := ⟨VariableDeclarator.statements⟩

instance : Carries (Statement Span) (ForInit Span) := ⟨ForInit.statements⟩

instance : Carries (Statement Span) (Class Span) := ⟨Class.statements⟩

instance : Carries (Statement Span) (ClassBody Span) := ⟨ClassBody.statements⟩

instance : Carries (Statement Span) (MethodDefinition Span) := ⟨MethodDefinition.statements⟩

namespace Composes

variable {K : List (Statement Span)}

/-! ## Expressions -/

section

variable {e e' e'' : Expr Span} {es : List (Expr Span)} {slots : List (Option (Expr Span))}
  {ps : List (Property Span)} {p : Pattern Span} {f : Func Span} {s : Span}

instance literal {value : Literal Span} :
    Composes ([] : List (Statement Span)) (parts (Expr.literal value)) := ⟨rfl⟩

instance array : Composes (parts slots : List (Statement Span)) (parts (Expr.array slots s)) :=
  ⟨(Expr.slotsStatements_eq slots).symm⟩

instance object : Composes (parts ps : List (Statement Span)) (parts (Expr.object ps s)) :=
  ⟨(Property.allStatements_eq ps).symm⟩

instance functionExpression [h : Composes K (parts f)] : Composes K (parts (Expr.function f)) := h

instance template {quasis : List (TemplateElement Span)} :
    Composes ([] : List (Statement Span)) (parts (Expr.template quasis [] s)) := ⟨rfl⟩

instance ident {id : Ident Span} :
    Composes ([] : List (Statement Span)) (parts (Expr.ident id)) := ⟨rfl⟩

instance this : Composes ([] : List (Statement Span)) (parts (Expr.this s)) := ⟨rfl⟩

instance super : Composes ([] : List (Statement Span)) (parts (Expr.super s)) := ⟨rfl⟩

instance unary {op : UnaryOp} : Composes (parts e : List (Statement Span))
    (parts (Expr.unary op e s)) := ⟨rfl⟩

instance binary {op : BinaryOp} : Composes (parts e ++ parts e' : List (Statement Span))
    (parts (Expr.binary op e e' s)) := ⟨rfl⟩

instance logical {op : LogicalOp} : Composes (parts e ++ parts e' : List (Statement Span))
    (parts (Expr.logical op e e' s)) := ⟨rfl⟩

instance conditional : Composes (parts e ++ parts e' ++ parts e'' : List (Statement Span))
    (parts (Expr.conditional e e' e'' s)) := ⟨List.append_assoc ..⟩

instance assign {op : AssignmentOp} : Composes (parts p ++ parts e : List (Statement Span))
    (parts (Expr.assign op p e s)) := ⟨rfl⟩

instance update {op : UpdateOp} {before : Bool} : Composes (parts e : List (Statement Span))
    (parts (Expr.update op before e s)) := ⟨rfl⟩

instance await : Composes (parts e : List (Statement Span)) (parts (Expr.await e s)) := ⟨rfl⟩

instance namedMember {id : Ident Span} {computed : Bool} : Composes
    (parts e : List (Statement Span)) (parts (Expr.member e (.ident id) computed s)) :=
  ⟨(List.append_nil _).symm⟩

instance computedMember {computed : Bool} : Composes (parts e ++ parts e' : List (Statement Span))
    (parts (Expr.member e (.expr e') computed s)) := ⟨rfl⟩

instance call : Composes (parts e ++ parts es : List (Statement Span)) (parts (Expr.call e es s)) :=
  ⟨congrArg (parts e ++ ·) (Expr.allStatements_eq es).symm⟩

instance new : Composes (parts e ++ parts es : List (Statement Span)) (parts (Expr.new e es s)) :=
  ⟨congrArg (parts e ++ ·) (Expr.allStatements_eq es).symm⟩

end

/-! ## Keys, functions and members -/

section

variable {e : Expr Span} {f : Func Span} {s : Span}

instance keyName {id : Ident Span} :
    Composes ([] : List (Statement Span)) (parts (PropertyKey.ident id)) := ⟨rfl⟩

instance keyLiteral {value : Literal Span} :
    Composes ([] : List (Statement Span)) (parts (PropertyKey.literal value)) := ⟨rfl⟩

instance keyComputed : Composes (parts e : List (Statement Span))
    (parts (PropertyKey.computed e)) := ⟨rfl⟩

/-- A key comes with a flag. -/
instance property {x : PropertyKey Span × Bool} {kind : PropertyKind}
    {computed shorthand method : Bool} [h : Composes K (parts e)] :
    Composes (parts x ++ K) (parts (Property.mk x.1 e kind computed shorthand method s)) := by
  refine ⟨?_⟩
  rw [h.eq]
  exact congrArg (· ++ parts e) (List.append_nil (parts x.1))

instance methodDefinition {x : PropertyKey Span × Bool} {kind : MethodKind}
    {computed static : Bool} : Composes (parts x ++ parts f : List (Statement Span))
      (parts (MethodDefinition.mk x.1 f kind computed static s)) :=
  ⟨congrArg (· ++ parts f) (List.append_nil (parts x.1))⟩

instance block {sts : List (Statement Span)} :
    Composes (parts sts : List (Statement Span)) (parts (Block.mk sts s)) :=
  ⟨(Statement.allStatements_eq sts).symm⟩

instance func {b : Block Span} {id : Option (Ident Span)} {params : List (Ident Span)}
    {generator async : Bool} : Composes (parts b : List (Statement Span))
      (parts (Func.mk id params b generator async s)) := ⟨rfl⟩

instance classBody {ms : List (MethodDefinition Span)} [h : Composes K (parts ms)] :
    Composes K (parts (ClassBody.mk ms s)) :=
  ⟨h.eq.trans (MethodDefinition.allStatements_eq ms).symm⟩

instance classDeclaration {id : Ident Span} {superClass : Option (Expr Span)}
    {body : ClassBody Span} : Composes (parts superClass ++ parts body : List (Statement Span))
      (parts (Class.mk id superClass body s)) :=
  ⟨congrArg (· ++ parts body) (Expr.optionStatements_eq superClass).symm⟩

/-! ## Declarations -/

instance declarator {id : Ident Span} {init : Option (Expr Span)} :
    Composes (parts init : List (Statement Span)) (parts (VariableDeclarator.mk id init s)) :=
  ⟨(Expr.optionStatements_eq init).symm⟩

instance declaration {kind : VariableKind} {ds : List (VariableDeclarator Span)} :
    Composes (parts ds : List (Statement Span)) (parts (VariableDeclaration.mk kind ds s)) :=
  ⟨(VariableDeclarator.allStatements_eq ds).symm⟩

/-- The span of a declaration makes no difference. -/
instance declarationAt {d : VariableDeclaration Span} : Composes
    (parts d : List (Statement Span)) (parts (VariableDeclaration.mk d.kind d.declarations s)) := by
  cases d
  exact ⟨rfl⟩

instance initVars {d : VariableDeclaration Span} :
    Composes (parts d : List (Statement Span)) (parts (ForInit.vars d)) := ⟨rfl⟩

instance initExpr : Composes (parts e : List (Statement Span)) (parts (ForInit.expr e)) := ⟨rfl⟩

end

/-! ## Statements within a statement -/

section

variable {e : Expr Span} {e? : Option (Expr Span)} {st : Statement Span} {s : Span}

instance innerVars {d : VariableDeclaration Span} [h : Composes K (parts d)] :
    Composes K (Statement.inner (.vars d)) := h

instance innerFunction {f : Func Span} : Composes (parts f) (Statement.inner (.function f)) := ⟨rfl⟩

instance innerClass {c : Class Span} :
    Composes (parts c) (Statement.inner (.classDeclaration c)) := ⟨rfl⟩

instance innerExpression : Composes (parts e) (Statement.inner (.expression e s)) := ⟨rfl⟩

instance innerBlock {b : Block Span} : Composes (parts b) (Statement.inner (.block b)) := ⟨rfl⟩

instance innerIf {alternate : Option (Statement Span)} :
    Composes (parts e ++ parts st ++ parts alternate)
      (Statement.inner (.ifElse e st alternate s)) := by
  refine ⟨(List.append_assoc ..).trans ?_⟩
  exact congrArg (fun xs => parts e ++ (parts st ++ xs)) (Statement.optionStatements_eq _).symm

instance innerFor {init : Option (ForInit Span)} {update : Option (Expr Span)} :
    Composes (parts init ++ parts e? ++ parts update ++ parts st)
      (Statement.inner (.forLoop init e? update st s)) := by
  refine ⟨?_⟩
  show _ = ForInit.optionStatements init ++ (Expr.optionStatements e? ++
    (Expr.optionStatements update ++ st.statements))
  rw [ForInit.optionStatements_eq, Expr.optionStatements_eq, Expr.optionStatements_eq,
    List.append_assoc, List.append_assoc]
  rfl

instance innerWhile : Composes (parts e ++ parts st) (Statement.inner (.whileLoop e st s)) := ⟨rfl⟩

instance innerReturn : Composes (parts e?) (Statement.inner (.ret e? s)) :=
  ⟨(Expr.optionStatements_eq e?).symm⟩

instance innerEmpty : Composes [] (Statement.inner (.empty s)) := ⟨rfl⟩

end

end Composes

end Parse

end JsSyntax
