import JsSyntax.Ast.Basic

/-! # The statements in a tree

Statements stand in blocks, as branches and as bodies of loops, and so in the functions, methods
and classes of which expressions are made. `statements` lists all that occur in a tree, a statement
before those within it.
-/

set_option autoImplicit false

namespace JsSyntax

variable {σ : Type}

mutual

def Expr.statements : Expr σ → List (Statement σ)
  | .literal _ => []
  | .array elements _ => Expr.slotsStatements elements
  | .object properties _ => Property.allStatements properties
  | .function value => value.statements
  | .template _ expressions _ => Expr.allStatements expressions
  | .ident _ => []
  | .this _ => []
  | .super _ => []
  | .unary _ argument _ => argument.statements
  | .binary _ left right _ => left.statements ++ right.statements
  | .logical _ left right _ => left.statements ++ right.statements
  | .conditional test consequent alternate _ =>
    test.statements ++ (consequent.statements ++ alternate.statements)
  | .assign _ left right _ => left.statements ++ right.statements
  | .update _ _ argument _ => argument.statements
  | .await argument _ => argument.statements
  | .member object property _ _ => object.statements ++ property.statements
  | .call callee arguments _ => callee.statements ++ Expr.allStatements arguments
  | .new callee arguments _ => callee.statements ++ Expr.allStatements arguments

def Expr.allStatements : List (Expr σ) → List (Statement σ)
  | [] => []
  | e :: es => e.statements ++ Expr.allStatements es

def Expr.optionStatements : Option (Expr σ) → List (Statement σ)
  | none => []
  | some e => e.statements

def Expr.slotsStatements : List (Option (Expr σ)) → List (Statement σ)
  | [] => []
  | e :: es => Expr.optionStatements e ++ Expr.slotsStatements es

def MemberProperty.statements : MemberProperty σ → List (Statement σ)
  | .ident _ => []
  | .expr value => value.statements

def PropertyKey.statements : PropertyKey σ → List (Statement σ)
  | .ident _ => []
  | .literal _ => []
  | .computed value => value.statements

def Property.statements : Property σ → List (Statement σ)
  | ⟨key, value, _, _, _, _, _⟩ => key.statements ++ value.statements

def Property.allStatements : List (Property σ) → List (Statement σ)
  | [] => []
  | p :: ps => p.statements ++ Property.allStatements ps

def Pattern.statements : Pattern σ → List (Statement σ)
  | .ident _ => []
  | .member object property _ _ => object.statements ++ property.statements
  | .array elements _ => Pattern.slotsStatements elements
  | .object properties _ => PatternProperty.allStatements properties

def Pattern.optionStatements : Option (Pattern σ) → List (Statement σ)
  | none => []
  | some p => p.statements

def Pattern.slotsStatements : List (Option (Pattern σ)) → List (Statement σ)
  | [] => []
  | p :: ps => Pattern.optionStatements p ++ Pattern.slotsStatements ps

def PatternProperty.statements : PatternProperty σ → List (Statement σ)
  | ⟨key, value, _, _, _⟩ => key.statements ++ value.statements

def PatternProperty.allStatements : List (PatternProperty σ) → List (Statement σ)
  | [] => []
  | p :: ps => p.statements ++ PatternProperty.allStatements ps

def Func.statements : Func σ → List (Statement σ)
  | ⟨_, _, body, _, _, _⟩ => body.statements

def Block.statements : Block σ → List (Statement σ)
  | ⟨body, _⟩ => Statement.allStatements body

/-- The statement itself comes first. -/
def Statement.statements : Statement σ → List (Statement σ)
  | .vars declaration => .vars declaration :: declaration.statements
  | .function declaration => .function declaration :: declaration.statements
  | .classDeclaration declaration => .classDeclaration declaration :: declaration.statements
  | .expression value s => .expression value s :: value.statements
  | .block value => .block value :: value.statements
  | .ifElse test consequent alternate s =>
    .ifElse test consequent alternate s ::
      (test.statements ++ (consequent.statements ++ Statement.optionStatements alternate))
  | .forLoop init test update body s =>
    .forLoop init test update body s ::
      (ForInit.optionStatements init ++ (Expr.optionStatements test ++
        (Expr.optionStatements update ++ body.statements)))
  | .whileLoop test body s => .whileLoop test body s :: (test.statements ++ body.statements)
  | .ret argument s => .ret argument s :: Expr.optionStatements argument
  | .empty s => [.empty s]

def Statement.allStatements : List (Statement σ) → List (Statement σ)
  | [] => []
  | s :: ss => s.statements ++ Statement.allStatements ss

def Statement.optionStatements : Option (Statement σ) → List (Statement σ)
  | none => []
  | some s => s.statements

def VariableDeclaration.statements : VariableDeclaration σ → List (Statement σ)
  | ⟨_, declarations, _⟩ => VariableDeclarator.allStatements declarations

def VariableDeclarator.statements : VariableDeclarator σ → List (Statement σ)
  | ⟨_, init, _⟩ => Expr.optionStatements init

def VariableDeclarator.allStatements : List (VariableDeclarator σ) → List (Statement σ)
  | [] => []
  | d :: ds => d.statements ++ VariableDeclarator.allStatements ds

def ForInit.statements : ForInit σ → List (Statement σ)
  | .vars declaration => declaration.statements
  | .expr value => value.statements

def ForInit.optionStatements : Option (ForInit σ) → List (Statement σ)
  | none => []
  | some i => i.statements

def Class.statements : Class σ → List (Statement σ)
  | ⟨_, superClass, body, _⟩ => Expr.optionStatements superClass ++ body.statements

def ClassBody.statements : ClassBody σ → List (Statement σ)
  | ⟨body, _⟩ => MethodDefinition.allStatements body

def MethodDefinition.statements : MethodDefinition σ → List (Statement σ)
  | ⟨key, value, _, _, _, _⟩ => key.statements ++ value.statements

def MethodDefinition.allStatements : List (MethodDefinition σ) → List (Statement σ)
  | [] => []
  | m :: ms => m.statements ++ MethodDefinition.allStatements ms

end

/-- The statements within a statement. -/
def Statement.inner (s : Statement σ) : List (Statement σ) := s.statements.tail

theorem Statement.statements_eq (s : Statement σ) : s.statements = s :: s.inner := by
  cases s <;> rfl

/-! ## Lists and options -/

@[simp] theorem Expr.allStatements_eq (es : List (Expr σ)) :
    Expr.allStatements es = es.flatMap Expr.statements := by
  induction es with
  | nil => rfl
  | cons e es ih => simp [Expr.allStatements, ih]

@[simp] theorem Expr.optionStatements_eq (e : Option (Expr σ)) :
    Expr.optionStatements e = e.toList.flatMap Expr.statements := by
  cases e <;> simp [Expr.optionStatements]

@[simp] theorem Expr.slotsStatements_eq (es : List (Option (Expr σ))) :
    Expr.slotsStatements es = es.flatMap fun e => e.toList.flatMap Expr.statements := by
  induction es with
  | nil => rfl
  | cons e es ih => simp [Expr.slotsStatements, ih]

@[simp] theorem Property.allStatements_eq (ps : List (Property σ)) :
    Property.allStatements ps = ps.flatMap Property.statements := by
  induction ps with
  | nil => rfl
  | cons p ps ih => simp [Property.allStatements, ih]

@[simp] theorem Statement.allStatements_eq (ss : List (Statement σ)) :
    Statement.allStatements ss = ss.flatMap Statement.statements := by
  induction ss with
  | nil => rfl
  | cons s ss ih => simp [Statement.allStatements, ih]

@[simp] theorem Statement.optionStatements_eq (s : Option (Statement σ)) :
    Statement.optionStatements s = s.toList.flatMap Statement.statements := by
  cases s <;> simp [Statement.optionStatements]

@[simp] theorem VariableDeclarator.allStatements_eq (ds : List (VariableDeclarator σ)) :
    VariableDeclarator.allStatements ds = ds.flatMap VariableDeclarator.statements := by
  induction ds with
  | nil => rfl
  | cons d ds ih => simp [VariableDeclarator.allStatements, ih]

@[simp] theorem ForInit.optionStatements_eq (init : Option (ForInit σ)) :
    ForInit.optionStatements init = init.toList.flatMap ForInit.statements := by
  cases init <;> simp [ForInit.optionStatements]

@[simp] theorem MethodDefinition.allStatements_eq (ms : List (MethodDefinition σ)) :
    MethodDefinition.allStatements ms = ms.flatMap MethodDefinition.statements := by
  induction ms with
  | nil => rfl
  | cons m ms ih => simp [MethodDefinition.allStatements, ih]

end JsSyntax
