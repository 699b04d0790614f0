import JsSyntax.Proofs.Nested.Parts
import JsSyntax.Proofs.Target

/-! # The statements that the routines of the grammar give

The class `Threads` for every routine, and from it, level by level, what becomes of the statements
of a tree: each of them has been given by the routine for statements at some level, and they stand
in the tree in the order in which that routine has started on them (`level_threading`).
-/

set_option autoImplicit false
-- The whole text of a routine goes through the search for an instance.
set_option synthInstance.maxSize 1024

namespace JsSyntax

namespace Parse

/-- The routines one level deeper keep the invariant. -/
class Deeper.Threading (I : Invariant (Statement Span)) (d : Deeper) : Prop where
  statement : Threads I [] parts d.statement
  assignment : Threads I [] parts d.assignment
  unary : Threads I [] parts d.unary
  construction : Threads I [] parts d.construction

attribute [instance] Deeper.Threading.statement Deeper.Threading.assignment
  Deeper.Threading.unary Deeper.Threading.construction

namespace Threads

variable {I : Invariant (Statement Span)}

/-! ## Functions and members -/

instance parameters : Threads I [] parts Parse.parameters := by
  unfold Parse.parameters
  infer_instance

instance stringLiteral : Threads I [] parts Parse.stringLiteral := by
  unfold Parse.stringLiteral
  infer_instance

instance numberLiteral : Threads I [] parts Parse.numberLiteral := by
  unfold Parse.numberLiteral
  refine looking fun t => ?_
  cases Double.ofNumeral? t.value <;> infer_instance

instance acceptAccessor : Threads I [] parts Parse.acceptAccessor := by
  unfold Parse.acceptAccessor
  infer_instance

section
variable {d : Deeper} [d.Threading I]

instance block : Threads I [] parts (Parse.block d) := by
  unfold Parse.block
  infer_instance

instance methodFunction {async generator : Bool} :
    Threads I [] parts (Parse.methodFunction d async generator) := by
  unfold Parse.methodFunction
  infer_instance

instance function : Threads I [] parts (Parse.function d) := by
  unfold Parse.function
  dsimp only
  infer_instance

instance propertyKey : Threads I [] parts (Parse.propertyKey d) := by
  unfold Parse.propertyKey
  infer_instance

/-! ## Members of objects and classes -/

omit [d.Threading I] in
/-- The property that a key alone is. -/
theorem shorthand (first : Token) (start : Span) (kind : PropertyKind)
    (x : PropertyKey Span × Bool) :
    Threads I (parts x) parts (match x.1 with
      | .ident id =>
        if isReference first then do
          return ⟨x.1, .ident id, kind, false, true, false, ← Parse.spanFrom start⟩
        else Parse.fail (.missingMark .propertyColon)
      | _ => Parse.fail (.missingMark .propertyColon) : ParseM (Property Span)) := by
  obtain ⟨key, computed⟩ := x
  cases key with
  | ident id =>
    have : ∀ s, Composes ([] : List (Statement Span))
        (parts (Property.mk (.ident id) (.ident id) kind false true false s)) := fun _ => ⟨rfl⟩
    show Threads I [] parts _
    infer_instance
  | literal value => exact fail
  | computed e => exact fail

instance property : Threads I [] parts (Parse.property d) := by
  unfold Parse.property
  dsimp only
  have := @shorthand I
  infer_instance

instance methodDefinition : Threads I [] parts (Parse.methodDefinition d) := by
  unfold Parse.methodDefinition
  dsimp only
  infer_instance

/-! ## Expressions -/

instance arrayLiteral : Threads I [] parts (Parse.arrayLiteral d) := by
  unfold Parse.arrayLiteral
  infer_instance

instance objectLiteral : Threads I [] parts (Parse.objectLiteral d) := by
  unfold Parse.objectLiteral
  infer_instance

instance group : Threads I [] parts (Parse.group d) := by
  unfold Parse.group
  infer_instance

instance templateLiteral : Threads I [] parts (Parse.templateLiteral) := by
  unfold Parse.templateLiteral
  infer_instance

instance keywordPrimary : Threads I [] parts (Parse.keywordPrimary d) := by
  unfold Parse.keywordPrimary
  infer_instance

instance markPrimary : Threads I [] parts (Parse.markPrimary d) := by
  unfold Parse.markPrimary
  infer_instance

instance primary : Threads I [] parts (Parse.primary d) := by
  unfold Parse.primary
  refine looking fun t => ?_
  cases t.kind <;> infer_instance

instance arguments : Threads I [] parts (Parse.arguments d) := by
  unfold Parse.arguments
  infer_instance

instance optionalArguments : Threads I [] parts (Parse.optionalArguments d) := by
  unfold Parse.optionalArguments
  infer_instance

instance memberAccess? {start : Span} {object : Expr Span} :
    Threads I (parts object) (following object) (Parse.memberAccess? d start object) := by
  unfold Parse.memberAccess?
  infer_instance

/-- What follows an access goes on with the member, or with the object if there is none. -/
instance throughAccess {β : Type} {g : β → List (Statement Span)} {start : Span}
    {object : Expr Span} {k : Option (Expr Span) → ParseM β}
    [hn : Threads I (parts object) g (k none)] [hs : ∀ e, Threads I (parts e) g (k (some e))] :
    Threads I (parts object) g (Parse.memberAccess? d start object >>= k) :=
  through memberAccess? (Option.forall.2 ⟨hn, hs⟩)

instance chainLink? {start : Span} {e : Expr Span} :
    Threads I (parts e) (following e) (Parse.chainLink? d start e) := by
  unfold Parse.chainLink?
  infer_instance

instance chain : Threads I [] parts (Parse.chain d) := by
  unfold Parse.chain
  infer_instance

instance construction : Threads I [] parts (Parse.construction d) := by
  unfold Parse.construction
  infer_instance

instance requireUpdateTarget {e : Expr Span} :
    Threads I [] parts (Parse.requireUpdateTarget e) := by
  refine ⟨fun front hs h => ?_⟩
  unfold Parse.requireUpdateTarget at h
  split at h
  · obtain ⟨-, rfl⟩ := pure_eq_ok.mp h
    exact hs
  · exact absurd h throw_ne_ok

instance update : Threads I [] parts (Parse.update d) := by
  unfold Parse.update
  infer_instance

instance acceptUnaryOp : Threads I [] parts Parse.acceptUnaryOp := by
  unfold Parse.acceptUnaryOp
  infer_instance

instance unary : Threads I [] parts (Parse.unary d) := by
  unfold Parse.unary
  infer_instance

instance binaryLevel {ops : List BinaryOp} {operand : ParseM (Expr Span)}
    [Threads I [] parts operand] : Threads I [] parts (Parse.binaryLevel ops operand) := by
  unfold Parse.binaryLevel Parse.leftAssociative
  infer_instance

instance logicalLevel {op : LogicalOp} {operand : ParseM (Expr Span)}
    [Threads I [] parts operand] : Threads I [] parts (Parse.logicalLevel op operand) := by
  unfold Parse.logicalLevel Parse.leftAssociative
  infer_instance

instance multiplicative : Threads I [] parts (Parse.multiplicative d) := binaryLevel

instance additive : Threads I [] parts (Parse.additive d) := binaryLevel

instance comparison : Threads I [] parts (Parse.comparison d) := binaryLevel

instance equality : Threads I [] parts (Parse.equality d) := binaryLevel

instance logicalAnd : Threads I [] parts (Parse.logicalAnd d) := logicalLevel

instance logicalOr : Threads I [] parts (Parse.logicalOr d) := logicalLevel

instance conditional : Threads I [] parts (Parse.conditional d) := by
  unfold Parse.conditional
  infer_instance

instance target {e : Expr Span} : Threads I (parts e) parts (Parse.target e) := by
  refine ⟨fun front hs hok => ?_⟩
  obtain ⟨rfl, rfl⟩ := target_reads hok
  show I.Holds _ (front ++ Pattern.statements _)
  rwa [← Pattern.statements_toExpr]

instance assignment : Threads I [] parts (Parse.assignment d) := by
  unfold Parse.assignment
  infer_instance

/-! ## Statements -/

instance variableDeclarator : Threads I [] parts (Parse.variableDeclarator d) := by
  unfold Parse.variableDeclarator
  dsimp only
  infer_instance

instance variableList {kind : VariableKind} {start : Span} :
    Threads I [] parts (Parse.variableList d kind start) := by
  unfold Parse.variableList
  infer_instance

instance variableDeclaration {kind : VariableKind} {start : Span} :
    Threads I [] parts (Parse.variableDeclaration d kind start) := by
  unfold Parse.variableDeclaration
  infer_instance

instance classBody : Threads I [] parts (Parse.classBody d) := by
  unfold Parse.classBody
  infer_instance

instance classDeclaration : Threads I [] parts (Parse.classDeclaration d) := by
  unfold Parse.classDeclaration
  dsimp only
  infer_instance

instance ifStatement : Threads I [] Statement.inner (Parse.ifStatement d) := by
  unfold Parse.ifStatement
  dsimp only
  infer_instance

instance forInit : Threads I [] parts (Parse.forInit d) := by
  unfold Parse.forInit
  infer_instance

instance optionalBefore {mark : String} :
    Threads I [] parts (Parse.optionalBefore d mark) := by
  unfold Parse.optionalBefore
  infer_instance

instance forStatement : Threads I [] Statement.inner (Parse.forStatement d) := by
  unfold Parse.forStatement
  infer_instance

instance whileStatement : Threads I [] Statement.inner (Parse.whileStatement d) := by
  unfold Parse.whileStatement
  infer_instance

instance returnStatement : Threads I [] Statement.inner (Parse.returnStatement d) := by
  unfold Parse.returnStatement
  infer_instance

instance expressionStatement : Threads I [] Statement.inner (Parse.expressionStatement d) := by
  unfold Parse.expressionStatement
  infer_instance

instance keywordStatement : Threads I [] Statement.inner (Parse.keywordStatement d) := by
  unfold Parse.keywordStatement
  infer_instance

end

end Threads

/-! ## Levels -/

section
variable {I : Invariant (Statement Span)}

/-- A statement says that it begins, and then gives the statements within it. -/
theorem statement_threads {d : Deeper} [d.Threading I] {s s' : State} {st : Statement Span}
    {front : List (Statement Span)} (h : Parse.statement d s = .ok st s')
    (hs : I.Holds { s with events := .statement s.current :: s.events } front) :
    I.Holds s' (front ++ st.inner) := by
  unfold Parse.statement at h
  simp only [peek_bind, emit_bind] at h
  refine Threads.threads (K := []) (f := Statement.inner) front ?_ h
  rwa [List.append_nil]

/-- What holds before a statement holds behind it, with the statements of the tree in the order in
which they begin, if giving a statement keeps it. -/
theorem level_threading {limit : Nat}
    (hI : ∀ n ≤ limit, ∀ {s s' : State} {st : Statement Span} {front : List (Statement Span)},
      (level n).statement s = .ok st s' → I.Holds s front →
      I.Holds { s with events := .statement s.current :: s.events } (front ++ [st])) :
    ∀ n ≤ limit, (level n).Threading I
  | 0, _ => ⟨Threads.fail, Threads.fail, Threads.fail, Threads.fail⟩
  | n + 1, hn => by
    have := level_threading hI n (Nat.le_of_succ_le hn)
    refine ⟨⟨fun {s st s'} front hs h => ?_⟩, Threads.assignment, Threads.unary,
      Threads.construction⟩
    rw [List.append_nil] at hs
    show I.Holds s' (front ++ st.statements)
    rw [Statement.statements_eq, ← List.singleton_append, ← List.append_assoc]
    exact statement_threads (d := level n) h (hI (n + 1) hn h hs)

end

/-! ## Where statements come from -/

/-- A statement that the routine for statements at one of the levels up to `limit` has returned, in
a state that reading from `S` leads to. -/
def ParsedFrom (S : State) (limit : Nat) (st : Statement Span) : Prop :=
  ∃ n ≤ limit, ∃ s s', Reached S s ∧ (level n).statement s = .ok st s'

def parsedFrom (S : State) (limit : Nat) : Invariant (Statement Span) where
  Holds s K := Reached S s ∧ ∀ x ∈ K, ParsedFrom S limit x
  reads h hu _ := ⟨h.1.trans hu, h.2⟩

theorem level_parsedFrom (S : State) (limit : Nat) :
    (level limit).Threading (parsedFrom S limit) := by
  refine level_threading (fun n hn s s' st front h hs => ?_) _ (Nat.le_refl _)
  refine ⟨hs.1.withEvents _, fun x hx => ?_⟩
  rcases List.mem_append.1 hx with hx | hx
  · exact hs.2 x hx
  · obtain rfl := List.mem_singleton.1 hx
    exact ⟨n, hn, s, s', hs.1, h⟩

/-- All statements in the trees of a run have been returned by the routine for statements. -/
theorem Runs.parsedFrom {S s s' : State} {limit : Nat} {os : List Outcome}
    (h : Runs (level limit) s os s') (hs : Reached S s) :
    ∀ st, .ok st ∈ os → ∀ x ∈ st.statements, ParsedFrom S limit x :=
  h.gathers ⟨fun hs _ hok =>
    (level_parsedFrom S limit).statement.threads [] ⟨hs, List.forall_mem_nil _⟩ hok⟩ hs

end Parse

end JsSyntax
