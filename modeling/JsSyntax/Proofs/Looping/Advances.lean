import JsSyntax.Proofs.Looping.Coded

/-! # Routines that find something

A routine that succeeds and has something to show for it has read a token at least
(`Routine.lt_of_ok`). A few routines are only called where the next token has been looked at, and
need what their callers know of it (`Routine.Ready`).
-/

set_option autoImplicit false
-- The whole text of a routine goes through the search for an instance.
set_option synthInstance.maxSize 1024

namespace JsSyntax

open Grammar

namespace Parse

variable {α : Type}

/-! ## Routines that advance -/

namespace Advances

instance identifier (place : NamePlace) : Advances (Parse.identifier place) where
  lt h := by
    obtain ⟨t, hr, -⟩ := identifier_reads h
    exact hr.lt_of_ne_nil (by simp)

instance unexpected : Advances (Parse.unexpected : ParseM α) where
  lt h := absurd h unexpected_ne_ok

instance parameters : Advances Parse.parameters := by
  unfold Parse.parameters
  infer_instance

section
variable (d : Deeper) [hd : d.Regular]

instance function : Advances (Parse.function d) := by
  unfold Parse.function
  dsimp only
  infer_instance

instance propertyKey : Advances (Parse.propertyKey d) where
  lt h := by
    obtain ⟨u, hu, hkey, -⟩ := propertyKey_reads hd.sound h
    exact hu.lt_of_ne_nil (hkey.ne_nil rfl)

instance property : Advances (Parse.property d) := of_parses (property_parses hd.sound) rfl

instance arrayLiteral : Advances (Parse.arrayLiteral d) := by
  unfold Parse.arrayLiteral
  infer_instance

instance objectLiteral : Advances (Parse.objectLiteral d) := by
  unfold Parse.objectLiteral
  infer_instance

instance group : Advances (Parse.group d) := by
  unfold Parse.group
  infer_instance

instance markPrimary : Advances (Parse.markPrimary d) := by
  unfold Parse.markPrimary
  infer_instance

instance chain : Advances (Parse.chain d) := of_parses (chain_parses hd.sound) rfl

instance construction : Advances (Parse.construction d) := by
  unfold Parse.construction
  infer_instance

instance update : Advances (Parse.update d) := of_parses (update_parses hd.sound) rfl

instance logicalOr : Advances (Parse.logicalOr d) := leftAssociative

instance conditional : Advances (Parse.conditional d) :=
  of_parses (conditional_parses hd.sound) rfl

instance assignment : Advances (Parse.assignment d) := of_parses (assignment_parses hd.sound) rfl

instance variableDeclarator : Advances (Parse.variableDeclarator d) :=
  of_parses (variableDeclarator_parses hd.sound) rfl

instance variableList (kind : VariableKind) (start : Span) :
    Advances (Parse.variableList d kind start) where
  lt h := by
    obtain ⟨u, ds, hu, hds, -⟩ := variableList_reads hd.sound h
    exact hu.lt_of_ne_nil (hds.ne_nil rfl)

instance classDeclaration : Advances (Parse.classDeclaration d) := by
  unfold Parse.classDeclaration
  dsimp only
  infer_instance

instance ifStatement : Advances (Parse.ifStatement d) := by
  unfold Parse.ifStatement
  dsimp only
  infer_instance

instance forStatement : Advances (Parse.forStatement d) := by
  unfold Parse.forStatement
  infer_instance

instance whileStatement : Advances (Parse.whileStatement d) := by
  unfold Parse.whileStatement
  infer_instance

instance returnStatement : Advances (Parse.returnStatement d) := by
  unfold Parse.returnStatement
  infer_instance

instance expressionStatement : Advances (Parse.expressionStatement d) :=
  of_parses (expressionStatement_parses hd.sound) rfl

instance keywordStatement : Advances (Parse.keywordStatement d) := by
  unfold Parse.keywordStatement
  infer_instance

instance statement : Advances (Parse.statement d) := of_parses (statement_parses hd.sound) rfl

end

end Advances

/-! ## Optional parts -/

section
variable {d : Deeper} [d.Regular] {s s' : State}

theorem forInit_lt {init : ForInit Span} (h : forInit d s = .ok (some init) s') :
    s'.rest.length < s.rest.length := by
  rw [forInit, isMarkNext_bind] at h
  split at h
  · cases h
  · refine (Advances.after fun t => Advances.after fun kind => ?_).lt h
    cases kind <;> infer_instance

theorem optionalBefore_lt {mark : String} {e : Expr Span}
    (h : optionalBefore d mark s = .ok (some e) s') : s'.rest.length < s.rest.length := by
  rw [optionalBefore, isMarkNext_bind] at h
  split at h
  · cases h
  · exact Advances.lt h

end

/-! ## All routines -/

namespace Routine

/-- Is the result made of tokens? A part that may be left out need not be. -/
def HasTokens : {α : Type} → Routine α → α → Prop
  | _, .optionalArguments, _ => False
  | _, .target _, _ => False
  | _, .memberAccess? _ _, x => x.isSome
  | _, .chainLink? _ _, x => x.isSome
  | _, .forInit, x => x.isSome
  | _, .optionalBefore _, x => x.isSome
  | _, _, _ => True

/-- What the callers of the routine have made sure of. The operands of a level have tokens. -/
def Ready : {α : Type} → Routine α → State → Prop
  | _, .nestedConstruction, s => s.current.isKeyword "new"
  | _, .stringLiteral, s => s.current.kind = .string
  | _, .numberLiteral, s => s.current.kind = .number
  | _, .templateLiteral, s => s.current.kind = .templateString
  | _, .keywordPrimary, s => s.current.kind = .keyword
  | _, .binaryLevel _ operand, s => operand.Ready s ∧ ∀ e, operand.HasTokens e
  | _, .logicalLevel _ operand, s => operand.Ready s ∧ ∀ e, operand.HasTokens e
  | _, _, _ => True

/-- The first operand of a level has been read. -/
theorem leftAssociative_lt {γ : Type} {operator : ParseM (Option γ)} [Shrinks operator]
    {build : γ → Expr Span → Expr Span → Span → Expr Span} {operand : ParseM (Expr Span)}
    [Shrinks operand] {e : Expr Span} {s s' : State}
    (hlt : ∀ {e s₁}, operand s = .ok e s₁ → s₁.rest.length < s.rest.length)
    (h : leftAssociative operator build operand s = .ok e s') :
    s'.rest.length < s.rest.length := by
  rw [leftAssociative, peek_bind] at h
  obtain ⟨first, s₁, hfirst, h⟩ := bind_eq_ok.mp h
  have := hlt hfirst
  have := Shrinks.le_of_ok h
  omega

theorem lt_of_ok {d : Deeper} [hd : d.Regular] (r : Routine α) {a : α} {s s' : State}
    (hs : r.Ready s) (ha : r.HasTokens a) (h : r.run d s = .ok a s') :
    s'.rest.length < s.rest.length := by
  induction r generalizing s s' with
  | nestedConstruction =>
    obtain ⟨u, hu, he⟩ := hd.sound.construction (Token.is_iff.1 hs) h
    exact hu.lt_of_ne_nil (he.ne_nil rfl)
  | stringLiteral => exact (stringLiteral_reads hs h).1.lt_of_ne_nil (by simp)
  | numberLiteral => exact (numberLiteral_reads hs h).1.lt_of_ne_nil (by simp)
  | templateLiteral => exact (templateLiteral_reads hs h).1.lt_of_ne_nil (by simp)
  | keywordPrimary =>
    obtain ⟨u, hu, he⟩ := keywordPrimary_parses hd.sound hs h
    exact hu.lt_of_ne_nil (he.ne_nil rfl)
  | optionalArguments => cases ha
  | target e => cases ha
  | memberAccess? start object =>
    obtain ⟨e, rfl⟩ := Option.isSome_iff_exists.1 ha
    exact Alignment.memberAccess?_lt h
  | chainLink? start e =>
    obtain ⟨e, rfl⟩ := Option.isSome_iff_exists.1 ha
    exact Alignment.chainLink?_lt h
  | forInit =>
    obtain ⟨init, rfl⟩ := Option.isSome_iff_exists.1 ha
    exact forInit_lt h
  | optionalBefore mark =>
    obtain ⟨e, rfl⟩ := Option.isSome_iff_exists.1 ha
    exact optionalBefore_lt h
  | binaryLevel ops operand ih => exact leftAssociative_lt (fun h => ih hs.1 (hs.2 _) h) h
  | logicalLevel op operand ih => exact leftAssociative_lt (fun h => ih hs.1 (hs.2 _) h) h
  | _ =>
    -- The others succeed only behind a token, whatever stands in front of them.
    dsimp only [run] at h
    exact Advances.lt h

end Routine

end Parse

end JsSyntax
