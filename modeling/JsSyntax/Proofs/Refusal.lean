import JsSyntax.Ast.Node
import JsSyntax.Proofs.Target

/-! # Expressions that are no patterns

Reading an expression as a pattern undoes writing a pattern as an expression, and nothing else can
be read (`Expr.toPattern_inverts_toExpr`). What can be read is told without the reading
(`Expr.Assignable`), and so is what is reported otherwise: of the nodes that would have to be
nodes of the pattern, in preorder (`Expr.targetNodes`), it is the first that cannot be one
(`Node.isRefused`).
-/

set_option autoImplicit false

namespace JsSyntax

variable {σ : Type}

/-! ## What can be assigned to -/

inductive Expr.Assignable : Expr σ → Prop where
  | ident (id : Ident σ) : Assignable (.ident id)
  | member (object : Expr σ) (property : MemberProperty σ) (computed : Bool) (s : σ) :
      Assignable (.member object property computed s)
  /-- Holes do not count. -/
  | array {elements : List (Option (Expr σ))} (s : σ) :
      (∀ e, some e ∈ elements → Assignable e) → Assignable (.array elements s)
  | object {properties : List (Property σ)} (s : σ) :
      (∀ p ∈ properties, p.kind = .init ∧ p.method = false) →
      (∀ p ∈ properties, Assignable p.value) → Assignable (.object properties s)

/-! ## Nodes in the place of pattern nodes -/

mutual

/-- The expression, the elements of an array, and the properties of an object, each with its value
behind it, in preorder. Keys, and the parts of other expressions, are no parts of a pattern. -/
def Expr.targetNodes : Expr σ → List (Node σ)
  | .array elements s => .expr (.array elements s) :: Expr.slotsTargetNodes elements
  | .object properties s => .expr (.object properties s) :: Property.allTargetNodes properties
  | e => [.expr e]

def Expr.slotTargetNodes : Option (Expr σ) → List (Node σ)
  | none => []
  | some e => e.targetNodes

def Expr.slotsTargetNodes : List (Option (Expr σ)) → List (Node σ)
  | [] => []
  | slot :: slots => Expr.slotTargetNodes slot ++ Expr.slotsTargetNodes slots

def Property.targetNodes : Property σ → List (Node σ)
  | ⟨key, value, kind, computed, shorthand, method, s⟩ =>
    .property ⟨key, value, kind, computed, shorthand, method, s⟩ :: value.targetNodes

def Property.allTargetNodes : List (Property σ) → List (Node σ)
  | [] => []
  | p :: ps => p.targetNodes ++ Property.allTargetNodes ps

end

/-- Accessors and methods are no parts of a pattern, and no expressions but names, member accesses,
arrays and objects. -/
def Node.isRefused : Node σ → Bool
  | .expr (.ident _) | .expr (.member ..) | .expr (.array ..) | .expr (.object ..) => false
  | .expr _ => true
  | .property p => p.kind ≠ .init ∨ p.method
  | _ => false

/-- The annotation of the first node that is refused. -/
def firstRefused? (ns : List (Node σ)) : Option σ := (ns.find? Node.isRefused).map Node.span

theorem firstRefused?_append (ns ms : List (Node σ)) :
    firstRefused? (ns ++ ms) = (firstRefused? ns).or (firstRefused? ms) := by
  simp [firstRefused?, List.find?_append, Option.map_or]

theorem firstRefused?_cons_of_refused {n : Node σ} (ns : List (Node σ)) (h : n.isRefused) :
    firstRefused? (n :: ns) = some n.span := by
  simp [firstRefused?, h]

theorem firstRefused?_cons_of_not_refused {n : Node σ} (ns : List (Node σ))
    (h : n.isRefused = false) : firstRefused? (n :: ns) = firstRefused? ns := by
  simp [firstRefused?, h]

/-! ## Refusals -/

/-- The error, if it is one. -/
def refusal? {ε α : Type} : Except ε α → Option ε
  | .ok _ => none
  | .error e => some e

section
variable {ε α β γ : Type}

theorem refusal?_bind_ok (x : Except ε α) (f : α → β) :
    refusal? (x >>= fun a => .ok (f a)) = refusal? x := by
  cases x <;> rfl

/-- The first of two refusals counts. -/
theorem refusal?_bind_bind (x : Except ε α) (y : Except ε β) (f : α → β → γ) :
    refusal? (x >>= fun a => y >>= fun b => .ok (f a b)) = (refusal? x).or (refusal? y) := by
  cases x with
  | ok a => exact refusal?_bind_ok y (f a)
  | error e => rfl

end

mutual

/-- What is reported of an expression is the first of its nodes that is refused. -/
theorem Expr.refusal?_asPattern :
    (e : Expr σ) → refusal? e.asPattern = firstRefused? e.targetNodes
  | .ident _ => rfl
  | .member .. => rfl
  | .array elements s => by
    rw [Expr.asPattern, refusal?_bind_ok, Expr.refusal?_slotsAsPatterns elements,
      Expr.targetNodes, firstRefused?_cons_of_not_refused _ rfl]
  | .object properties s => by
    rw [Expr.asPattern, refusal?_bind_ok, Property.refusal?_allAsPatterns properties,
      Expr.targetNodes, firstRefused?_cons_of_not_refused _ rfl]
  | .literal _ | .function _ | .template .. | .this _ | .super _ | .unary .. | .binary ..
  | .logical .. | .conditional .. | .assign .. | .update .. | .await .. | .call .. | .new .. => rfl

theorem Expr.refusal?_slotAsPattern : (slot : Option (Expr σ)) →
    refusal? (Expr.slotAsPattern slot) = firstRefused? (Expr.slotTargetNodes slot)
  | none => rfl
  | some e => by
    rw [Expr.slotAsPattern, refusal?_bind_ok, Expr.refusal?_asPattern e, Expr.slotTargetNodes]

theorem Expr.refusal?_slotsAsPatterns : (slots : List (Option (Expr σ))) →
    refusal? (Expr.slotsAsPatterns slots) = firstRefused? (Expr.slotsTargetNodes slots)
  | [] => rfl
  | slot :: slots => by
    rw [Expr.slotsAsPatterns, refusal?_bind_bind, Expr.refusal?_slotAsPattern slot,
      Expr.refusal?_slotsAsPatterns slots, Expr.slotsTargetNodes, firstRefused?_append]

/-- A property that is refused comes before its value. -/
theorem Property.refusal?_asPattern :
    (p : Property σ) → refusal? p.asPattern = firstRefused? p.targetNodes
  | ⟨key, value, kind, computed, shorthand, method, s⟩ => by
    have hrefused : (Node.property ⟨key, value, kind, computed, shorthand, method, s⟩).isRefused =
        decide (kind ≠ .init ∨ method) := rfl
    rw [Property.asPattern, Property.targetNodes]
    split
    · next h =>
      rw [firstRefused?_cons_of_refused _ (hrefused.trans (decide_eq_true h))]
      rfl
    · next h =>
      rw [firstRefused?_cons_of_not_refused _ (hrefused.trans (decide_eq_false h)),
        refusal?_bind_ok, Expr.refusal?_asPattern value]

theorem Property.refusal?_allAsPatterns : (ps : List (Property σ)) →
    refusal? (Property.allAsPatterns ps) = firstRefused? (Property.allTargetNodes ps)
  | [] => rfl
  | p :: ps => by
    rw [Property.allAsPatterns, refusal?_bind_bind, Property.refusal?_asPattern p,
      Property.refusal?_allAsPatterns ps, Property.allTargetNodes, firstRefused?_append]

end

/-! ## The way back -/

mutual

theorem Pattern.asPattern_toExpr : (p : Pattern σ) → p.toExpr.asPattern = .ok p
  | .ident _ => rfl
  | .member .. => rfl
  | .array elements s => by
    rw [Pattern.toExpr, Expr.asPattern, Pattern.slotsAsPatterns_toExprs elements]
    rfl
  | .object properties s => by
    rw [Pattern.toExpr, Expr.asPattern, PatternProperty.allAsPatterns_toProperties properties]
    rfl

theorem Pattern.slotAsPattern_toExpr : (slot : Option (Pattern σ)) →
    Expr.slotAsPattern (Pattern.slotToExpr slot) = .ok slot
  | none => rfl
  | some p => by
    rw [Pattern.slotToExpr, Expr.slotAsPattern, Pattern.asPattern_toExpr p]
    rfl

theorem Pattern.slotsAsPatterns_toExprs : (slots : List (Option (Pattern σ))) →
    Expr.slotsAsPatterns (Pattern.slotsToExprs slots) = .ok slots
  | [] => rfl
  | slot :: slots => by
    rw [Pattern.slotsToExprs, Expr.slotsAsPatterns, Pattern.slotAsPattern_toExpr slot,
      Pattern.slotsAsPatterns_toExprs slots]
    rfl

theorem PatternProperty.asPattern_toProperty :
    (p : PatternProperty σ) → p.toProperty.asPattern = .ok p
  | ⟨key, value, computed, shorthand, s⟩ => by
    rw [PatternProperty.toProperty, Property.asPattern, if_neg (by simp),
      Pattern.asPattern_toExpr value]
    rfl

theorem PatternProperty.allAsPatterns_toProperties : (ps : List (PatternProperty σ)) →
    Property.allAsPatterns (PatternProperty.allToProperties ps) = .ok ps
  | [] => rfl
  | p :: ps => by
    rw [PatternProperty.allToProperties, Property.allAsPatterns,
      PatternProperty.asPattern_toProperty p, PatternProperty.allAsPatterns_toProperties ps]
    rfl

end

/-! ## What can be read -/

mutual

/-- What a pattern is written as can be assigned to. -/
theorem Pattern.assignable_toExpr : (p : Pattern σ) → p.toExpr.Assignable
  | .ident id => .ident id
  | .member object property computed s => .member object property computed s
  | .array elements s => .array s (Pattern.slots_assignable elements)
  | .object properties s =>
    .object s (fun p hp => (PatternProperty.all_assignable properties p hp).1)
      fun p hp => (PatternProperty.all_assignable properties p hp).2

theorem Pattern.slots_assignable : (slots : List (Option (Pattern σ))) →
    ∀ e, some e ∈ Pattern.slotsToExprs slots → e.Assignable
  | [], _, h => nomatch h
  | none :: slots, e, h => by
    rcases List.mem_cons.1 h with h | h
    · cases h
    · exact Pattern.slots_assignable slots e h
  | some p :: slots, e, h => by
    rcases List.mem_cons.1 h with h | h
    · obtain rfl := Option.some.inj h
      exact Pattern.assignable_toExpr p
    · exact Pattern.slots_assignable slots e h

theorem PatternProperty.all_assignable : (ps : List (PatternProperty σ)) →
    ∀ p ∈ PatternProperty.allToProperties ps,
      (p.kind = .init ∧ p.method = false) ∧ p.value.Assignable
  | [], _, h => nomatch h
  | ⟨key, value, computed, shorthand, s⟩ :: ps, p, h => by
    rcases List.mem_cons.1 h with rfl | h
    · exact ⟨⟨rfl, rfl⟩, Pattern.assignable_toExpr value⟩
    · exact PatternProperty.all_assignable ps p h

end

theorem Expr.slotsAsPatterns_of_forall {slots : List (Option (Expr σ))}
    (h : ∀ e, some e ∈ slots → ∃ p, e.asPattern = .ok p) :
    ∃ ps, Expr.slotsAsPatterns slots = .ok ps := by
  induction slots with
  | nil => exact ⟨[], rfl⟩
  | cons slot slots ih =>
    obtain ⟨ps, hps⟩ := ih fun e he => h e (List.mem_cons_of_mem _ he)
    cases slot with
    | none => exact ⟨none :: ps, by rw [Expr.slotsAsPatterns, hps]; rfl⟩
    | some e =>
      obtain ⟨p, hp⟩ := h e List.mem_cons_self
      exact ⟨some p :: ps, by rw [Expr.slotsAsPatterns, Expr.slotAsPattern, hp, hps]; rfl⟩

theorem Property.allAsPatterns_of_forall {ps : List (Property σ)}
    (hinit : ∀ p ∈ ps, p.kind = .init ∧ p.method = false)
    (h : ∀ p ∈ ps, ∃ q, p.value.asPattern = .ok q) : ∃ qs, Property.allAsPatterns ps = .ok qs := by
  induction ps with
  | nil => exact ⟨[], rfl⟩
  | cons p ps ih =>
    obtain ⟨hp, hps⟩ := List.forall_mem_cons.1 hinit
    obtain ⟨⟨q, hq⟩, hqs⟩ := List.forall_mem_cons.1 h
    obtain ⟨qs, hqs⟩ := ih hps hqs
    obtain ⟨key, value, kind, computed, shorthand, method, s⟩ := p
    obtain ⟨rfl, rfl⟩ : kind = .init ∧ method = false := hp
    refine ⟨⟨key, q, computed, shorthand, s⟩ :: qs, ?_⟩
    rw [Property.allAsPatterns, Property.asPattern, if_neg (by simp), hq, hqs]
    rfl

theorem Expr.Assignable.exists_pattern {e : Expr σ} (h : e.Assignable) :
    ∃ p, e.asPattern = .ok p := by
  induction h with
  | ident id => exact ⟨.ident id, rfl⟩
  | member object property computed s => exact ⟨.member object property computed s, rfl⟩
  | array s _ ih =>
    obtain ⟨ps, hps⟩ := Expr.slotsAsPatterns_of_forall ih
    exact ⟨.array ps s, by rw [Expr.asPattern, hps]; rfl⟩
  | object s hinit _ ih =>
    obtain ⟨ps, hps⟩ := Property.allAsPatterns_of_forall hinit ih
    exact ⟨.object ps s, by rw [Expr.asPattern, hps]; rfl⟩

/-! ## The reading -/

theorem Expr.asPattern_eq_ok_iff {e : Expr σ} {p : Pattern σ} :
    e.asPattern = .ok p ↔ p.toExpr = e :=
  ⟨fun h => (Expr.eq_toExpr_of_asPattern e p h).symm, fun h => h ▸ p.asPattern_toExpr⟩

theorem Expr.assignable_iff {e : Expr σ} : (∃ p, e.asPattern = .ok p) ↔ e.Assignable :=
  ⟨fun ⟨p, h⟩ => Expr.asPattern_eq_ok_iff.1 h ▸ p.assignable_toExpr,
    Expr.Assignable.exists_pattern⟩

theorem Expr.toPattern_eq_ok_iff {e : Expr Span} {p : Pattern Span} :
    e.toPattern = .ok p ↔ e.asPattern = .ok p := by
  unfold Expr.toPattern
  cases e.asPattern with
  | ok q => exact ⟨fun h => congrArg _ (Except.ok.inj h), fun h => congrArg _ (Except.ok.inj h)⟩
  | error s => exact ⟨nofun, nofun⟩

theorem Expr.toPattern_eq_error_iff {e : Expr Span} {d : Diagnostic} :
    e.toPattern = .error d ↔ ∃ s, firstRefused? e.targetNodes = some s ∧ d = invalidTarget s := by
  rw [← Expr.refusal?_asPattern]
  unfold Expr.toPattern
  cases e.asPattern with
  | ok q => exact ⟨nofun, nofun⟩
  | error s => exact ⟨fun h => ⟨s, rfl, (Except.error.inj h).symm⟩, fun ⟨_, rfl, hd⟩ => hd ▸ rfl⟩

/-- **Reading as a pattern is the inverse of writing as an expression**, on all expressions that a
pattern is written as and on no others. These are the names, the member accesses, and the arrays
and objects of them, without methods and accessors. Of any other expression the first node is
reported that cannot be a node of a pattern, at its start. -/
theorem Expr.toPattern_inverts_toExpr (e : Expr Span) :
    (∀ p, e.toPattern = .ok p ↔ p.toExpr = e) ∧
    ((∃ p, e.toPattern = .ok p) ↔ e.Assignable) ∧
    ∀ d, e.toPattern = .error d ↔ ∃ n, e.targetNodes.find? Node.isRefused = some n ∧
      d = ⟨"Invalid assignment target", ⟨n.span.start.line, n.span.start.column⟩⟩ := by
  refine ⟨fun p => ?_, ?_, fun d => ?_⟩
  · rw [Expr.toPattern_eq_ok_iff, Expr.asPattern_eq_ok_iff]
  · simp only [Expr.toPattern_eq_ok_iff]
    exact Expr.assignable_iff
  · rw [Expr.toPattern_eq_error_iff]
    simp only [firstRefused?, Option.map_eq_some_iff]
    constructor
    · rintro ⟨_, ⟨n, hn, rfl⟩, rfl⟩
      exact ⟨n, hn, rfl⟩
    · rintro ⟨n, hn, rfl⟩
      exact ⟨n.span, ⟨n, hn, rfl⟩, rfl⟩

end JsSyntax
