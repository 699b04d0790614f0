import JsSyntax.Parse.Budget
import JsSyntax.Proofs.Budget.Depth
import JsSyntax.Proofs.Parse.Steps

/-! # A budget that is enough

Calls at one level of nesting go down a fixed order of the routines, and every way back up goes
through a nested routine, which takes a level. `Routine.cost` counts the calls: a call with that
budget does what it does without one (`within_eq`). So one budget is enough for every source
(`parse_within_budget`). The pattern that the left side of an assignment is read as goes down levels
that parsing has gone down already (`assignment_body`).
-/

set_option autoImplicit false

namespace JsSyntax

namespace Parse

variable {α β : Type}

/-! ## Steps that cost nothing -/

open Budgeted

theorem free_bind (m : ParseM α) (f : α → ParseM β) :
    free (m >>= f) = free m >>= fun a => free (f a) := liftM_bind m f

theorem free_pure (a : α) : free (pure a) = pure a := liftM_pure a

theorem free_map (f : α → β) (m : ParseM α) : free (f <$> m) = f <$> free m := liftM_map f m

theorem free_ite {c : Prop} [Decidable c] (m m' : ParseM α) :
    free (if c then m else m') = if c then free m else free m' := apply_ite free c m m'

theorem free_iterate_go (step : α → ParseM (Option α)) (fuel : List Token) (a : α) :
    free (iterate.go step fuel a) = Budgeted.iterate.go (fun a => free (step a)) fuel a := by
  induction fuel generalizing a with
  | nil => exact free_pure a
  | cons t fuel ih =>
    rw [iterate.go, Budgeted.iterate.go, free_bind]
    refine bind_congr fun x => ?_
    cases x with
    | none => exact free_pure a
    | some b => exact ih b

theorem free_iterate (step : α → ParseM (Option α)) (a : α) :
    free (iterate step a) = Budgeted.iterate (fun a => free (step a)) a := by
  rw [iterate, Budgeted.iterate, free_bind]
  exact bind_congr fun s => free_iterate_go step s.ahead a

theorem free_collect_go (step : ParseM (Item α)) (fuel : List Token) :
    free (collect.go step fuel) = Budgeted.collect.go (free step) fuel := by
  induction fuel with
  | nil => exact free_pure []
  | cons t fuel ih =>
    rw [collect.go, Budgeted.collect.go, free_bind]
    refine bind_congr fun item => ?_
    cases item with
    | stop => exact free_pure []
    | last a => exact free_pure [a]
    | more a =>
      rw [← ih]
      exact free_bind ..

theorem free_collect (step : ParseM (Item α)) :
    free (collect step) = Budgeted.collect (free step) := by
  rw [collect, Budgeted.collect, free_bind]
  exact bind_congr fun s => free_collect_go step s.ahead

theorem free_commaItem (element : ParseM α) :
    free (commaItem element) = Budgeted.commaItem (free element) := by
  rw [commaItem, Budgeted.commaItem, free_bind]
  exact bind_congr fun a => free_bind ..

theorem free_upTo (mark : String) (item : ParseM (Item α)) :
    free (upTo mark item) = Budgeted.upTo mark (free item) := by
  simp only [upTo, Budgeted.upTo, free_bind, free_ite, free_pure]

theorem free_leftAssociative (operator : ParseM (Option α))
    (build : α → Expr Span → Expr Span → Span → Expr Span) (operand : ParseM (Expr Span)) :
    free (leftAssociative operator build operand) =
      Budgeted.leftAssociative operator build (free operand) := by
  simp only [leftAssociative, Budgeted.leftAssociative, free_bind, free_iterate]
  refine bind_congr fun start => bind_congr fun first => ?_
  congr 1
  funext left
  refine bind_congr fun op => ?_
  cases op with
  | none => exact free_pure none
  | some op =>
    refine (free_bind ..).trans ?_
    exact bind_congr fun right => free_bind ..

/-- What is done after a step need agree for what the step can give only. -/
theorem free_bind_congr {m : ParseM α} {f g : α → Budgeted β}
    (h : ∀ {s a s'}, m s = .ok a s' → f a = g a) : free m >>= f = free m >>= g := by
  funext s
  show EStateM.bind (EStateM.map Except.ok m) (ExceptT.bindCont f) s =
    EStateM.bind (EStateM.map Except.ok m) (ExceptT.bindCont g) s
  unfold EStateM.bind EStateM.map
  cases hm : m s with
  | ok a s' => exact congrFun (h hm) s'
  | error e s' => rfl

/-! ## Patterns -/

/-- What was to be read as a pattern, or the failure to. -/
def orReject : Except Span α → ParseM α
  | .ok a => pure a
  | .error s => throw (invalidTarget s)

theorem orReject_ok (a : α) : orReject (.ok a) = pure a := rfl

theorem orReject_bind (x : Except Span α) (f : α → Except Span β) :
    orReject (x >>= f) = orReject x >>= fun a => orReject (f a) := by
  cases x <;> rfl

theorem target_eq_orReject (e : Expr Span) : target e = orReject e.asPattern := by
  unfold target Expr.toPattern
  cases e.asPattern <;> rfl

/-! ## What a call costs -/

namespace Routine

/-- A budget that is enough for a call with `n` levels of nesting left: the longest path of calls
through the levels, or through the parts of what is read as a pattern. -/
@[simp] def cost (n : Nat) : {α : Type} → Routine α → Nat
  | _, .target e => e.targetDepth
  | _, .binaryLevel _ operand => operand.cost n + 1
  | _, .logicalLevel _ operand => operand.cost n + 1
  | _, .nestedStatement | _, .nestedAssignment | _, .nestedUnary | _, .nestedConstruction
  | _, .identifier _ | _, .memberName | _, .stringLiteral | _, .numberLiteral
  | _, .templateLiteral => n * 24 + 1
  | _, .parameters | _, .block | _, .propertyKey | _, .arrayLiteral | _, .group | _, .arguments
  | _, .memberAccess? .. | _, .variableDeclarator | _, .ifStatement | _, .optionalBefore _
  | _, .whileStatement | _, .expressionStatement => n * 24 + 2
  | _, .methodFunction .. | _, .function | _, .optionalArguments | _, .variableList ..
  | _, .returnStatement => n * 24 + 3
  | _, .property | _, .methodDefinition | _, .keywordPrimary | _, .chainLink? ..
  | _, .variableDeclaration .. | _, .forInit => n * 24 + 4
  | _, .objectLiteral | _, .classBody | _, .forStatement => n * 24 + 5
  | _, .markPrimary => n * 24 + 6
  | _, .primary => n * 24 + 7
  | _, .chain | _, .construction => n * 24 + 8
  | _, .update | _, .classDeclaration => n * 24 + 9
  | _, .unary | _, .keywordStatement => n * 24 + 10
  | _, .statement => n * 24 + 11
  | _, .multiplicative => n * 24 + 12
  | _, .additive => n * 24 + 14
  | _, .comparison => n * 24 + 16
  | _, .equality => n * 24 + 18
  | _, .logicalAnd => n * 24 + 20
  | _, .logicalOr => n * 24 + 22
  | _, .conditional => n * 24 + 23
  | _, .assignment => n * 24 + 24

theorem cost_pos (n : Nat) : (r : Routine α) → 0 < r.cost n
  | .target e => e.targetDepth_pos
  | r => by cases r <;> first | exact Nat.succ_pos _ | exact Expr.targetDepth_pos _

variable {call deeper : {α : Type} → Routine α → Budgeted α} {n : Nat}

/-- The cheaper routines do within the budget what they do without one. -/
def Served (call : {α : Type} → Routine α → Budgeted α) (n : Nat) (r : Routine α) : Prop :=
  ∀ {β : Type} (r' : Routine β), r'.cost n < r.cost n → call r' = free (r'.run (level n))

theorem Served.eq {r : Routine α} (h : Served call n r) (r' : Routine β)
    (hlt : r'.cost n < r.cost n := by simp) : call r' = free (r'.run (level n)) := h r' hlt

/-- The nested routines do within the budget what they do without one. -/
structure Descends (deeper : {α : Type} → Routine α → Budgeted α) (d : Deeper) : Prop where
  statement : deeper .statement = free d.statement
  assignment : deeper .assignment = free d.assignment
  unary : deeper .unary = free d.unary
  construction : deeper .construction = free d.construction

section
variable {d : Deeper}

theorem property_body (hkey : call .propertyKey = free (Parse.propertyKey d))
    (hmethod : ∀ async generator, call (.methodFunction async generator) =
      free (Parse.methodFunction d async generator))
    (hvalue : call .nestedAssignment = free d.assignment) :
    body call deeper .property = free (Parse.property d) := by
  unfold body
  simp only [Parse.property, hkey, hmethod, hvalue, free_bind, free_ite, free_pure]
  refine bind_congr fun t => bind_congr fun accessor => ?_
  rcases accessor with _ | _ | _
  · simp only [if_true]
    refine bind_congr fun async => bind_congr fun generator => bind_congr fun first =>
      bind_congr fun key => bind_congr fun next => ?_
    obtain ⟨_ | _ | _, computed⟩ := key <;> simp only [free_ite, free_bind, free_pure]
  · simp only [reduceCtorEq, if_false, pure_bind]
    rfl
  · simp only [reduceCtorEq, if_false, pure_bind]
    rfl

theorem primary_body (hnumber : call .numberLiteral = free Parse.numberLiteral)
    (hstring : call .stringLiteral = free Parse.stringLiteral)
    (htemplate : call .templateLiteral = free Parse.templateLiteral)
    (hmark : call .markPrimary = free (Parse.markPrimary d))
    (hkeyword : call .keywordPrimary = free (Parse.keywordPrimary d)) :
    body call deeper .primary = free (Parse.primary d) := by
  unfold body
  simp only [Parse.primary, hnumber, hstring, htemplate, hmark, hkeyword, free_bind]
  refine bind_congr fun t => ?_
  cases t.kind <;> simp only [free_bind, free_pure]

theorem chainLink?_body {start : Span} {e : Expr Span}
    (hcall : call .arguments = free (Parse.arguments d))
    (haccess : call (.memberAccess? start e) = free (Parse.memberAccess? d start e))
    (hnew : call .optionalArguments = free (Parse.optionalArguments d)) :
    body call deeper (.chainLink? start e) = free (Parse.chainLink? d start e) := by
  unfold body
  simp only [Parse.chainLink?, hcall, haccess, hnew, free_bind, free_ite, free_pure]
  refine bind_congr fun yes => congrArg (ite _ _) (bind_congr fun access => ?_)
  cases access <;> simp only [free_bind, free_ite, free_pure]

theorem update_body (hunary : call .nestedUnary = free d.unary)
    (hchain : call .chain = free (Parse.chain d)) :
    body call deeper .update = free (Parse.update d) := by
  unfold body
  simp only [Parse.update, hunary, hchain, free_bind]
  refine bind_congr fun t => bind_congr fun before => ?_
  cases before with
  | some op => simp only [free_bind, free_pure]
  | none =>
    simp only [free_bind]
    refine bind_congr fun e => bind_congr fun behind => ?_
    cases behind <;> simp only [free_bind, free_pure]

theorem unary_body (hunary : call .nestedUnary = free d.unary)
    (hupdate : call .update = free (Parse.update d)) :
    body call deeper .unary = free (Parse.unary d) := by
  unfold body
  simp only [Parse.unary, hunary, hupdate, free_bind, free_ite, free_pure]
  refine bind_congr fun t => bind_congr fun await => congrArg (ite _ _) (bind_congr fun op => ?_)
  cases op <;> simp only [free_bind, free_pure]

theorem forInit_body
    (hlist : ∀ kind start, call (.variableList kind start) = free (Parse.variableList d kind start))
    (hinit : call .nestedAssignment = free d.assignment) :
    body call deeper .forInit = free (Parse.forInit d) := by
  unfold body
  simp only [Parse.forInit, hlist, hinit, free_bind, free_ite, free_pure]
  refine bind_congr fun none => congrArg (ite _ _) (bind_congr fun t => bind_congr fun kind => ?_)
  cases kind <;> simp only [free_bind, free_pure]

theorem statement_body (hvars : ∀ kind start, call (.variableDeclaration kind start) =
      free (Parse.variableDeclaration d kind start))
    (hkeyword : call .keywordStatement = free (Parse.keywordStatement d))
    (hblock : call .block = free (Parse.block d))
    (hexpression : call .expressionStatement = free (Parse.expressionStatement d)) :
    body call deeper .statement = free (Parse.statement d) := by
  unfold body
  simp only [Parse.statement, hvars, hkeyword, hblock, hexpression, free_bind]
  refine bind_congr fun t => bind_congr fun _ => bind_congr fun kind => ?_
  cases kind <;> simp only [free_bind, free_ite, free_pure]

end

/-- An assignment reads as a pattern only what it has parsed itself. -/
theorem assignment_body (hleft : call .conditional = free (Parse.conditional (level n)))
    (htarget : ∀ e, e.targetDepth ≤ n + 2 → call (.target e) = free (Parse.target e))
    (hright : call .nestedAssignment = free (level n).assignment) :
    body call deeper .assignment = free (Parse.assignment (level n)) := by
  have := level_flat n
  unfold body
  simp only [Parse.assignment, hleft, hright, free_bind]
  refine bind_congr fun t => free_bind_congr fun {_ left _} hleft => bind_congr fun op => ?_
  have hdepth : left.targetDepth ≤ n + 2 := Flat.conditional.le hleft
  cases op with
  | some op => simp only [htarget left hdepth, free_bind, free_pure]
  | none => simp only [free_pure]

section
variable {e : Expr Span} (h : Served call n (.target e))
include h

theorem slots_body {slots : List (Option (Expr Span))}
    (hdepth : Expr.slotsTargetDepth slots < e.targetDepth) :
    slots.mapM (slotted fun e => call (.target e)) =
      free (orReject (Expr.slotsAsPatterns slots)) := by
  induction slots with
  | nil => exact (free_pure _).symm
  | cons slot slots ih =>
    obtain ⟨hslot, hslots⟩ := Nat.max_lt.1 hdepth
    rw [List.mapM_cons, ih hslots, Expr.slotsAsPatterns]
    cases slot with
    | none =>
      simp only [Expr.slotAsPattern, slotted, orReject_bind, orReject_ok, free_bind, free_pure,
        pure_bind]
    | some e' =>
      simp only [Expr.slotAsPattern, slotted, run, h.eq (.target e') hslot, target_eq_orReject,
        orReject_bind, orReject_ok, free_bind, free_pure, bind_assoc, pure_bind]

theorem properties_body {properties : List (Property Span)}
    (hdepth : Property.allTargetDepth properties < e.targetDepth) :
    properties.mapM (fun p => do
      if p.kind ≠ .init ∨ p.method then free (throw (invalidTarget p.span))
      else
        let value ← call (.target p.value)
        return ⟨p.key, value, p.computed, p.shorthand, p.span⟩) =
      free (orReject (Property.allAsPatterns properties)) := by
  induction properties with
  | nil => exact (free_pure _).symm
  | cons p properties ih =>
    obtain ⟨hvalue, hproperties⟩ := Nat.max_lt.1 hdepth
    obtain ⟨key, value, kind, computed, shorthand, method, s⟩ := p
    have hvalue : value.targetDepth < e.targetDepth := hvalue
    rw [List.mapM_cons, ih hproperties, Property.allAsPatterns, orReject_bind, free_bind]
    have hrest : ∀ p : PatternProperty Span,
        free (orReject (do
          let ps ← Property.allAsPatterns properties
          .ok (p :: ps))) =
        free (orReject (Property.allAsPatterns properties)) >>= fun ps => pure (p :: ps) := by
      intro p
      simp only [orReject_bind, orReject_ok, free_bind, free_pure]
    simp only [hrest, Property.asPattern, run, h.eq (.target value) hvalue, target_eq_orReject]
    by_cases hkind : kind ≠ .init ∨ method = true
    · rw [if_pos hkind, if_pos hkind]
      rfl
    · rw [if_neg hkind, if_neg hkind]
      simp only [orReject_bind, orReject_ok, free_bind, free_pure, bind_assoc, pure_bind]

theorem target_body : body call deeper (.target e) = free (Parse.target e) := by
  rw [target_eq_orReject]
  cases e with
  | array elements s =>
    unfold body
    simp only [slots_body h (Nat.lt_succ_self _), Expr.asPattern, orReject_bind, orReject_ok,
      free_bind, free_pure]
  | object properties s =>
    unfold body
    simp only [properties_body h (Nat.lt_succ_self _), Expr.asPattern, orReject_bind,
      orReject_ok, free_bind, free_pure]
  | _ => rfl

end

/-- A routine does within a budget what it does without one, if the routines that it calls do. -/
theorem body_eq {r : Routine α} (h : Served call n r)
    (hdeeper : n * 24 < r.cost n → Descends deeper (level n)) :
    r.body call deeper = free (r.run (level n)) := by
  cases r with
  | nestedStatement => exact (hdeeper (Nat.lt_succ_self _)).statement
  | nestedAssignment => exact (hdeeper (Nat.lt_succ_self _)).assignment
  | nestedUnary => exact (hdeeper (Nat.lt_succ_self _)).unary
  | nestedConstruction => exact (hdeeper (Nat.lt_succ_self _)).construction
  | identifier place => rfl
  | memberName => rfl
  | parameters =>
    unfold body
    simp only [Parse.parameters, h.eq (.identifier .parameter), run, free_bind,
      free_ite, free_collect, free_commaItem, free_pure]
  | block =>
    unfold body
    simp only [Parse.block, h.eq .nestedStatement, run, free_bind, free_collect,
      free_upTo, free_pure]
  | methodFunction async generator =>
    unfold body
    simp only [Parse.methodFunction, h.eq .parameters,
      h.eq .block, run, free_bind, free_pure]
  | function =>
    unfold body
    simp only [Parse.function, h.eq (.identifier .variable),
      h.eq .parameters, h.eq .block, run, free_bind, free_ite, free_map,
      free_pure]
  | stringLiteral => rfl
  | numberLiteral => rfl
  | propertyKey =>
    unfold body
    simp only [Parse.propertyKey, h.eq .nestedAssignment,
      h.eq .stringLiteral, h.eq .numberLiteral, run, free_bind, free_ite,
      free_pure]
  | property =>
    exact property_body (h.eq .propertyKey) (fun async generator => h.eq (.methodFunction ..))
      (h.eq .nestedAssignment)
  | methodDefinition =>
    unfold body
    simp only [Parse.methodDefinition, h.eq .propertyKey,
      h.eq (.methodFunction _ _), run, free_bind, free_ite, free_pure]
  | arrayLiteral =>
    unfold body
    simp only [Parse.arrayLiteral, h.eq .nestedAssignment, run, free_bind,
      free_collect, free_upTo, free_ite, free_commaItem, free_map, free_pure]
  | objectLiteral =>
    unfold body
    simp only [Parse.objectLiteral, h.eq .property, run, free_bind, free_collect,
      free_upTo, free_commaItem, free_pure]
  | group =>
    unfold body
    simp only [Parse.group, h.eq .nestedAssignment, run, free_bind, free_pure]
  | templateLiteral => rfl
  | keywordPrimary =>
    unfold body
    simp only [Parse.keywordPrimary, h.eq .function,
      h.eq .nestedConstruction, run, free_bind, free_ite, free_pure]
  | markPrimary =>
    unfold body
    simp only [Parse.markPrimary, h.eq .group, h.eq .arrayLiteral,
      h.eq .objectLiteral, run, free_bind, free_ite]
  | primary =>
    exact primary_body (h.eq .numberLiteral) (h.eq .stringLiteral) (h.eq .templateLiteral)
      (h.eq .markPrimary) (h.eq .keywordPrimary)
  | arguments =>
    unfold body
    simp only [Parse.arguments, h.eq .nestedAssignment, run, free_bind, free_ite,
      free_collect, free_commaItem, free_pure]
  | optionalArguments =>
    unfold body
    simp only [Parse.optionalArguments, h.eq .arguments, run, free_bind, free_ite,
      free_pure]
  | memberAccess? start object =>
    unfold body
    simp only [Parse.memberAccess?, h.eq .nestedAssignment,
      h.eq .memberName, run, free_bind, free_ite, free_pure]
  | chainLink? start e =>
    exact chainLink?_body (h.eq .arguments) (h.eq (.memberAccess? start e))
      (h.eq .optionalArguments)
  | chain =>
    unfold body
    simp only [Parse.chain, h.eq .primary, h.eq (.chainLink? _ _), run,
      free_bind, free_iterate]
  | construction =>
    unfold body
    simp only [Parse.construction, h.eq .primary,
      h.eq (.memberAccess? _ _), h.eq .optionalArguments, run, free_bind,
      free_iterate, free_pure]
  | update => exact update_body (h.eq .nestedUnary) (h.eq .chain)
  | unary => exact unary_body (h.eq .nestedUnary) (h.eq .update)
  | binaryLevel ops operand =>
    unfold body
    simp only [Parse.binaryLevel, h.eq operand, run, free_leftAssociative]
  | logicalLevel op operand =>
    unfold body
    simp only [Parse.logicalLevel, h.eq operand, run, free_leftAssociative]
  | multiplicative => exact h.eq (.binaryLevel _ .unary)
  | additive => exact h.eq (.binaryLevel _ .multiplicative)
  | comparison => exact h.eq (.binaryLevel _ .additive)
  | equality => exact h.eq (.binaryLevel _ .comparison)
  | logicalAnd => exact h.eq (.logicalLevel _ .equality)
  | logicalOr => exact h.eq (.logicalLevel _ .logicalAnd)
  | conditional =>
    unfold body
    simp only [Parse.conditional, h.eq .logicalOr, h.eq .nestedAssignment,
      run, free_bind, free_ite, free_pure]
  | target e => exact target_body h
  | assignment =>
    refine assignment_body (h.eq .conditional) (fun e hdepth => h.eq (.target e) ?_)
      (h.eq .nestedAssignment)
    simp only [cost]
    omega
  | variableDeclarator =>
    unfold body
    simp only [Parse.variableDeclarator, h.eq (.identifier .variable),
      h.eq .nestedAssignment, run, free_bind, free_ite, free_map, free_pure]
  | variableList kind start =>
    unfold body
    simp only [Parse.variableList, h.eq .variableDeclarator, run, free_bind,
      free_collect, free_commaItem, free_pure]
  | variableDeclaration kind start =>
    unfold body
    simp only [Parse.variableDeclaration, h.eq (.variableList kind start), run,
      free_bind, free_pure]
  | classBody =>
    unfold body
    simp only [Parse.classBody, h.eq .methodDefinition, run, free_bind, free_collect,
      free_upTo, free_ite, free_pure]
  | classDeclaration =>
    unfold body
    simp only [Parse.classDeclaration, h.eq (.identifier .className),
      h.eq .chain, h.eq .classBody, run, free_bind, free_ite, free_map, free_pure]
  | ifStatement =>
    unfold body
    simp only [Parse.ifStatement, h.eq .nestedAssignment,
      h.eq .nestedStatement, run, free_bind, free_ite, free_map, free_pure]
  | forInit =>
    exact forInit_body (fun kind start => h.eq (.variableList ..)) (h.eq .nestedAssignment)
  | optionalBefore mark =>
    unfold body
    simp only [Parse.optionalBefore, h.eq .nestedAssignment, run, free_bind,
      free_ite, free_map, free_pure]
  | forStatement =>
    unfold body
    simp only [Parse.forStatement, h.eq .forInit,
      h.eq (.optionalBefore _), h.eq .nestedStatement, run, free_bind,
      free_pure]
  | whileStatement =>
    unfold body
    simp only [Parse.whileStatement, h.eq .nestedAssignment,
      h.eq .nestedStatement, run, free_bind, free_pure]
  | returnStatement =>
    unfold body
    simp only [Parse.returnStatement, h.eq (.optionalBefore _), run, free_bind,
      free_pure]
  | expressionStatement =>
    unfold body
    simp only [Parse.expressionStatement, h.eq .nestedAssignment, run, free_bind,
      free_pure]
  | keywordStatement =>
    unfold body
    simp only [Parse.keywordStatement, h.eq .function,
      h.eq .classDeclaration, h.eq .ifStatement, h.eq .forStatement,
      h.eq .whileStatement, h.eq .returnStatement,
      h.eq .expressionStatement, run, free_bind, free_ite, free_pure]
  | statement =>
    exact statement_body (fun kind start => h.eq (.variableDeclaration ..))
      (h.eq .keywordStatement) (h.eq .block) (h.eq .expressionStatement)

end Routine

/-- A call with a budget that is enough does what it does without one. -/
theorem within_eq {budget n : Nat} {r : Routine α} (h : r.cost n ≤ budget) :
    within budget n r = free (r.run (level n)) := by
  induction budget generalizing n α with
  | zero => exact absurd (r.cost_pos n) (by omega)
  | succ budget ih =>
    have hserved : Routine.Served (within budget n) n r := fun r' hlt => ih (by omega)
    refine Routine.body_eq hserved fun hlt => ?_
    cases n with
    | zero => exact ⟨rfl, rfl, rfl, rfl⟩
    | succ n =>
      have hle : n * 24 + 24 ≤ budget := by omega
      have hcall : ∀ {β : Type} (r' : Routine β), r'.cost n ≤ n * 24 + 24 →
          within budget n r' = free (r'.run (level n)) := fun r' h' => ih (Nat.le_trans h' hle)
      refine ⟨hcall .statement ?_, hcall .assignment ?_, hcall .unary ?_, hcall .construction ?_⟩ <;>
        simp [Routine.cost]

/-! ## Programs -/

section
variable {budget levels : Nat} (h : Routine.nestedStatement.cost levels ≤ budget)
include h

theorem nextOutcomeWithin_eq (s : State) :
    nextOutcomeWithin budget levels s = some (nextOutcome (level levels) s) := by
  have hrun : (within budget levels .nestedStatement).run s =
      EStateM.map Except.ok (level levels).statement s := by
    rw [within_eq h]
    rfl
  unfold nextOutcomeWithin nextOutcome
  rw [hrun]
  unfold EStateM.map
  cases (level levels).statement s <;> rfl

theorem outcomesWithin_eq (fuel : Nat) (s : State) :
    outcomesWithin budget levels fuel s = some (outcomes (level levels) fuel s) := by
  induction fuel generalizing s with
  | zero => rfl
  | succ fuel ih =>
    rw [outcomesWithin, outcomes]
    split
    · rfl
    · rw [nextOutcomeWithin_eq h]
      show (outcomesWithin budget levels fuel _ >>= _) = _
      rw [ih]
      rfl

end

end Parse

/-- There is a budget that is enough for every source, however deeply nested. -/
theorem parse_within_budget :
    ∃ budget, ∀ source, parseWithin budget source = some (parse source) := by
  refine ⟨Parse.Routine.nestedStatement.cost nestingLimit, fun source => ?_⟩
  unfold parseWithin
  simp only [Parse.outcomesWithin_eq (Nat.le_refl _)]
  rfl

/-- A budget that is used up by the calls from a statement down to a name. -/
example : (parseWithin 22 "x;").isNone := by decide +kernel

end JsSyntax
