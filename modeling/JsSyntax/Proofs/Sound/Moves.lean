import JsSyntax.Proofs.Nodes.Laid
import JsSyntax.Proofs.Parse.Moves
import JsSyntax.Proofs.Sound.Statement

/-! # The routines of the parser do not go back

The class `Moves` for every routine of the grammar. Two of them report a failure at what they have
read before, an operand and a target, and no such phrase ends with a semicolon.
-/

set_option autoImplicit false
-- The whole text of a routine goes through the search for an instance.
set_option synthInstance.maxSize 1024

namespace JsSyntax

open Grammar

namespace Parse

/-- What is known of the routines one level deeper. -/
class Deeper.Regular (d : Deeper) : Prop where
  sound : d.Sound
  statement : Moves d.statement
  assignment : Moves d.assignment
  unary : Moves d.unary
  construction : Moves d.construction

attribute [instance] Deeper.Regular.statement Deeper.Regular.assignment Deeper.Regular.unary
  Deeper.Regular.construction

namespace Moves

/-! ## Functions and members -/

instance parameters : Moves Parse.parameters := by
  unfold Parse.parameters
  infer_instance

section
variable (d : Deeper) [d.Regular]

instance block : Moves (Parse.block d) := by
  unfold Parse.block
  infer_instance

instance methodFunction (async generator : Bool) :
    Moves (Parse.methodFunction d async generator) := by
  unfold Parse.methodFunction
  infer_instance

instance function : Moves (Parse.function d) := by
  unfold Parse.function
  dsimp only
  infer_instance

end

instance stringLiteral : Moves Parse.stringLiteral := by
  unfold Parse.stringLiteral
  infer_instance

instance numberLiteral : Moves Parse.numberLiteral := by
  unfold Parse.numberLiteral
  refine andThen fun t => ?_
  cases Double.ofNumeral? t.value <;> infer_instance

instance acceptAccessor : Moves Parse.acceptAccessor := by
  unfold Parse.acceptAccessor
  infer_instance

section
variable (d : Deeper) [d.Regular]

instance propertyKey : Moves (Parse.propertyKey d) := by
  unfold Parse.propertyKey
  infer_instance

omit [d.Regular] in
/-- The property that a key alone is. -/
theorem shorthand (first : Token) (start : Span) (kind : PropertyKind) (key : PropertyKey Span) :
    Moves (match key with
      | .ident id =>
        if isReference first then do
          return ⟨key, .ident id, kind, false, true, false, ← Parse.spanFrom start⟩
        else Parse.fail (.missingMark .propertyColon)
      | _ => Parse.fail (.missingMark .propertyColon) : ParseM (Property Span)) := by
  cases key <;> infer_instance

instance property : Moves (Parse.property d) := by
  unfold Parse.property
  dsimp only
  have := shorthand
  infer_instance

instance methodDefinition : Moves (Parse.methodDefinition d) := by
  unfold Parse.methodDefinition
  dsimp only
  infer_instance

/-! ## Expressions -/

instance arrayLiteral : Moves (Parse.arrayLiteral d) := by
  unfold Parse.arrayLiteral
  infer_instance

instance objectLiteral : Moves (Parse.objectLiteral d) := by
  unfold Parse.objectLiteral
  infer_instance

instance group : Moves (Parse.group d) := by
  unfold Parse.group
  infer_instance

instance templateLiteral : Moves Parse.templateLiteral := by
  unfold Parse.templateLiteral
  infer_instance

instance keywordPrimary : Moves (Parse.keywordPrimary d) := by
  unfold Parse.keywordPrimary
  infer_instance

instance markPrimary : Moves (Parse.markPrimary d) := by
  unfold Parse.markPrimary
  infer_instance

instance primary : Moves (Parse.primary d) := by
  unfold Parse.primary
  refine andThen fun t => ?_
  cases t.kind <;> infer_instance

instance arguments : Moves (Parse.arguments d) := by
  unfold Parse.arguments
  infer_instance

instance optionalArguments : Moves (Parse.optionalArguments d) := by
  unfold Parse.optionalArguments
  infer_instance

instance memberAccess? (start : Span) (object : Expr Span) :
    Moves (Parse.memberAccess? d start object) := by
  unfold Parse.memberAccess?
  infer_instance

instance chainLink? (start : Span) (e : Expr Span) : Moves (Parse.chainLink? d start e) := by
  unfold Parse.chainLink?
  infer_instance

instance chain : Moves (Parse.chain d) := by
  unfold Parse.chain
  infer_instance

instance construction : Moves (Parse.construction d) := by
  unfold Parse.construction
  infer_instance

/-- An operand that is refused has been read last, and does not end with a semicolon. -/
theorem requireUpdateTarget_movesFrom {n : Nonterminal} {a : n.Node Span} {e : Expr Span}
    {s s' : State} {u : List Token} (hr : s.Reads u s') (ha : Derives Reading.spanned n u a)
    (hne : n.isNullable = false) (hn : n.endsLine = false) (hnode : n.nodes a = [.expr e]) :
    MovesFrom u s' (requireUpdateTarget e s') := by
  unfold requireUpdateTarget
  split
  · exact ((pure ()).moves s').mono (List.nil_subset u)
  · have hu := ha.ne_nil hne
    obtain ⟨v, hv, hlaid⟩ := (hnode ▸ ha.strewn).exists_laid (List.mem_singleton_self _)
    obtain ⟨t, ht, hstart⟩ := exists_start hlaid.covers
    refine .error (.inr ⟨u.getLast hu, ?_, ?_⟩)
      ⟨t, List.mem_append_left _ (hv.subset ht), Fault.location_report hstart⟩
    · rw [hr.last, List.getLast?_eq_some_getLast hu, Option.some_or]
    · exact ha.isOpen hn _ (List.getLast?_eq_some_getLast hu)

instance update : Moves (Parse.update d) := by
  unfold Parse.update
  refine andThen fun start => ?_
  refine andThen fun op => ?_
  cases op with
  | some op =>
    refine ⟨fun s => (moves s).bind fun h hr => ?_⟩
    obtain ⟨u, hu, he⟩ := Deeper.Regular.sound.unary h
    obtain rfl := hr.unique hu
    exact (requireUpdateTarget_movesFrom hu he rfl rfl rfl).bind fun _ _ =>
      (moves _).mono (List.nil_subset _)
  | none =>
    refine ⟨fun s => (moves s).bind fun h hr => ?_⟩
    obtain ⟨u, hu, he⟩ := chain_parses Deeper.Regular.sound h
    obtain rfl := hr.unique hu
    refine ((moves _).mono (List.nil_subset _)).bind ?_
    rintro x s₁ v hop hv
    obtain ⟨-, rfl⟩ := pure_eq_ok.mp hop
    cases x with
    | some op =>
      exact ((requireUpdateTarget_movesFrom hu he rfl rfl rfl).mono (by simp)).bind fun _ _ =>
        (moves _).mono (List.nil_subset _)
    | none => exact (moves _).mono (List.nil_subset _)

instance acceptUnaryOp : Moves Parse.acceptUnaryOp := by
  unfold Parse.acceptUnaryOp
  infer_instance

instance unary : Moves (Parse.unary d) := by
  unfold Parse.unary
  infer_instance

instance leftAssociative {γ : Type} {operator : ParseM (Option γ)}
    {build : γ → Expr Span → Expr Span → Span → Expr Span} {operand : ParseM (Expr Span)}
    [Moves operator] [Moves operand] : Moves (Parse.leftAssociative operator build operand) := by
  unfold Parse.leftAssociative
  infer_instance

instance multiplicative : Moves (Parse.multiplicative d) := leftAssociative

instance additive : Moves (Parse.additive d) := leftAssociative

instance comparison : Moves (Parse.comparison d) := leftAssociative

instance equality : Moves (Parse.equality d) := leftAssociative

instance logicalAnd : Moves (Parse.logicalAnd d) := leftAssociative

instance logicalOr : Moves (Parse.logicalOr d) := leftAssociative

instance conditional : Moves (Parse.conditional d) := by
  unfold Parse.conditional
  infer_instance

/-- A target that is refused stands before the operator that has been read last. -/
theorem target_movesFrom {op : AssignmentOp} {e : Expr Span} {s s' : State} {u : List Token}
    (he : Derives Reading.spanned .conditional u e) (hr : s.Reads [s.current] s')
    (ht : Reading.spanned.IsOperator s.current op.symbol) : MovesFrom u s' (target e s') := by
  unfold target Expr.toPattern
  cases hp : e.asPattern with
  | ok p => exact ((pure p).moves s').mono (List.nil_subset u)
  | error span =>
    obtain ⟨v, hv, hlaid⟩ := he.strewn.exists_laid (List.mem_singleton_self _)
    obtain ⟨t, ht', hstart⟩ := hlaid.refused e hp
    exact .error (.inr ⟨s.current, hr.last, ht.not_semicolon⟩)
      ⟨t, List.mem_append_left _ (hv.subset ht'), Fault.location_report hstart⟩

instance assignment : Moves (Parse.assignment d) := by
  unfold Parse.assignment
  refine andThen fun start => ?_
  refine ⟨fun s => (moves s).bind fun {left s₁ u} h hu => ?_⟩
  obtain ⟨u', hu', hleft⟩ := conditional_parses Deeper.Regular.sound h
  obtain rfl := hu.unique hu'
  refine ((moves s₁).mono (List.nil_subset _)).bind fun {x s₂ v} hop hv => ?_
  obtain ⟨rfl, rfl⟩ | ⟨op, rfl, -, hr, ht⟩ := acceptOneOf_reads (by decide) hop
  · exact (moves _).mono (List.nil_subset _)
  · exact ((target_movesFrom hleft hr ht).mono (by simp)).bind fun _ _ =>
      (moves _).mono (List.nil_subset _)

/-! ## Statements -/

instance variableDeclarator : Moves (Parse.variableDeclarator d) := by
  unfold Parse.variableDeclarator
  dsimp only
  infer_instance

instance variableList (kind : VariableKind) (start : Span) :
    Moves (Parse.variableList d kind start) := by
  unfold Parse.variableList
  infer_instance

instance variableDeclaration (kind : VariableKind) (start : Span) :
    Moves (Parse.variableDeclaration d kind start) := by
  unfold Parse.variableDeclaration
  infer_instance

instance classBody : Moves (Parse.classBody d) := by
  unfold Parse.classBody
  infer_instance

instance classDeclaration : Moves (Parse.classDeclaration d) := by
  unfold Parse.classDeclaration
  dsimp only
  infer_instance

instance ifStatement : Moves (Parse.ifStatement d) := by
  unfold Parse.ifStatement
  dsimp only
  infer_instance

instance forInit : Moves (Parse.forInit d) := by
  unfold Parse.forInit
  infer_instance

instance optionalBefore (mark : String) : Moves (Parse.optionalBefore d mark) := by
  unfold Parse.optionalBefore
  infer_instance

instance forStatement : Moves (Parse.forStatement d) := by
  unfold Parse.forStatement
  infer_instance

instance whileStatement : Moves (Parse.whileStatement d) := by
  unfold Parse.whileStatement
  infer_instance

instance returnStatement : Moves (Parse.returnStatement d) := by
  unfold Parse.returnStatement
  infer_instance

instance expressionStatement : Moves (Parse.expressionStatement d) := by
  unfold Parse.expressionStatement
  infer_instance

instance keywordStatement : Moves (Parse.keywordStatement d) := by
  unfold Parse.keywordStatement
  infer_instance

instance statement : Moves (Parse.statement d) := by
  unfold Parse.statement
  infer_instance

end

end Moves

/-! ## Levels -/

theorem Deeper.exhausted_regular : Deeper.exhausted.Regular :=
  ⟨exhausted_sound, Moves.fail _, Moves.fail _, Moves.fail _, Moves.fail _⟩

instance level_regular : ∀ n, (level n).Regular
  | 0 => Deeper.exhausted_regular
  | n + 1 =>
    have := level_regular n
    ⟨level_sound (n + 1), Moves.statement _, Moves.assignment _, Moves.unary _,
      Moves.construction _⟩

end Parse

end JsSyntax
