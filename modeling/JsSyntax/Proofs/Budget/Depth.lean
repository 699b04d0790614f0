import JsSyntax.Parse.Statement
import JsSyntax.Proofs.Parse.Loops

/-! # How deep a target nests

An expression is read as a pattern by going down its arrays and objects only. How deep that goes is
bounded by the levels of nesting that were left when the expression was parsed, since each array and
each object has taken one (`level_flat`).
-/

set_option autoImplicit false
-- The whole text of a routine goes through the search for an instance.
set_option synthInstance.maxSize 1024

namespace JsSyntax

/-! ## Depth -/

mutual

/-- How many patterns stand within one another if the expression is read as one. -/
def Expr.targetDepth {σ : Type} : Expr σ → Nat
  | .array elements _ => Expr.slotsTargetDepth elements + 1
  | .object properties _ => Property.allTargetDepth properties + 1
  | _ => 1

def Expr.slotTargetDepth {σ : Type} : Option (Expr σ) → Nat
  | none => 0
  | some e => e.targetDepth

def Expr.slotsTargetDepth {σ : Type} : List (Option (Expr σ)) → Nat
  | [] => 0
  | slot :: slots => max (Expr.slotTargetDepth slot) (Expr.slotsTargetDepth slots)

def Property.targetDepth {σ : Type} : Property σ → Nat
  | ⟨_, value, _, _, _, _, _⟩ => value.targetDepth

def Property.allTargetDepth {σ : Type} : List (Property σ) → Nat
  | [] => 0
  | p :: ps => max p.targetDepth (Property.allTargetDepth ps)

end

theorem Expr.targetDepth_pos {σ : Type} (e : Expr σ) : 0 < e.targetDepth := by
  cases e <;> simp [Expr.targetDepth]

namespace Parse

variable {α β : Type}

/-- The depth of the values that routines give, as far as it matters. -/
class Depth (α : Type) where
  depth : α → Nat

export Depth (depth)

instance : Depth (Expr Span) := ⟨Expr.targetDepth⟩

instance : Depth (Option (Expr Span)) := ⟨Expr.slotTargetDepth⟩

instance : Depth (List (Option (Expr Span))) := ⟨Expr.slotsTargetDepth⟩

instance : Depth (Property Span) := ⟨Property.targetDepth⟩

instance : Depth (List (Property Span)) := ⟨Property.allTargetDepth⟩

instance [Depth α] : Depth (Item α) where
  depth
    | .stop => 0
    | .last a => depth a
    | .more a => depth a

/-! ## Routines whose results are flat -/

/-- What the routine gives has at most the depth `k`. -/
class Flat [Depth α] (k : Nat) (m : ParseM α) : Prop where
  le : ∀ {s a s'}, m s = .ok a s' → depth a ≤ k

namespace Flat

variable {k : Nat}

section
variable [Depth β] {m : ParseM α} {f : α → ParseM β}

theorem pure {b : β} (h : depth b ≤ k) : Flat k (Pure.pure b : ParseM β) :=
  ⟨fun hok => by obtain ⟨rfl, -⟩ := pure_eq_ok.mp hok; exact h⟩

/-- What the first routine gives is at hand in the second. -/
theorem bind [Depth α] {j : Nat} (hm : Flat j m) (hf : ∀ a, depth a ≤ j → Flat k (f a)) :
    Flat k (m >>= f) := by
  refine ⟨fun hok => ?_⟩
  obtain ⟨a, s₁, h₁, h₂⟩ := bind_eq_ok.mp hok
  exact (hf a (hm.le h₁)).le h₂

instance skip [hf : ∀ a, Flat k (f a)] : Flat k (m >>= f) := by
  refine ⟨fun hok => ?_⟩
  obtain ⟨a, s₁, -, h₂⟩ := bind_eq_ok.mp hok
  exact (hf a).le h₂

/-- What the first routine gives does not matter. -/
theorem after (hf : ∀ a, Flat k (f a)) : Flat k (m >>= f) := skip

/-- A choice is followed by one routine for each case. -/
instance (priority := low) skipOption {m : ParseM (Option α)} {f : Option α → ParseM β}
    [hn : Flat k (f none)] [hs : ∀ a, Flat k (f (some a))] : Flat k (m >>= f) :=
  have : ∀ x, Flat k (f x) := Option.forall.2 ⟨hn, hs⟩
  skip

instance ite {c : Prop} [Decidable c] {m m' : ParseM β} [hm : Flat k m] [hm' : Flat k m'] :
    Flat k (if c then m else m') := by
  split
  · exact hm
  · exact hm'

instance fail {fault : Fault} : Flat k (Parse.fail fault : ParseM β) :=
  ⟨fun h => absurd h fail_ne_ok⟩

instance unexpected : Flat k (Parse.unexpected : ParseM β) := ⟨fun h => absurd h unexpected_ne_ok⟩

end

/-! ## Nodes that are no arrays and objects -/

/-- The node has no patterns in it. -/
class Leaf (e : Expr Span) : Prop where
  eq : e.targetDepth = 1

instance {value : Literal Span} : Leaf (.literal value) := ⟨rfl⟩

instance {value : Func Span} : Leaf (.function value) := ⟨rfl⟩

instance {quasis : List (TemplateElement Span)} {es : List (Expr Span)} {s : Span} :
    Leaf (.template quasis es s) := ⟨rfl⟩

instance {id : Ident Span} : Leaf (.ident id) := ⟨rfl⟩

instance {s : Span} : Leaf (.this s) := ⟨rfl⟩

instance {s : Span} : Leaf (.super s) := ⟨rfl⟩

instance {op : UnaryOp} {e : Expr Span} {s : Span} : Leaf (.unary op e s) := ⟨rfl⟩

instance {op : BinaryOp} {e e' : Expr Span} {s : Span} : Leaf (.binary op e e' s) := ⟨rfl⟩

instance {op : LogicalOp} {e e' : Expr Span} {s : Span} : Leaf (.logical op e e' s) := ⟨rfl⟩

instance {e e' e'' : Expr Span} {s : Span} : Leaf (.conditional e e' e'' s) := ⟨rfl⟩

instance {op : AssignmentOp} {p : Pattern Span} {e : Expr Span} {s : Span} :
    Leaf (.assign op p e s) := ⟨rfl⟩

instance {op : UpdateOp} {before : Bool} {e : Expr Span} {s : Span} :
    Leaf (.update op before e s) := ⟨rfl⟩

instance {e : Expr Span} {s : Span} : Leaf (.await e s) := ⟨rfl⟩

instance {e : Expr Span} {property : MemberProperty Span} {computed : Bool} {s : Span} :
    Leaf (.member e property computed s) := ⟨rfl⟩

instance {e : Expr Span} {es : List (Expr Span)} {s : Span} : Leaf (.call e es s) := ⟨rfl⟩

instance {e : Expr Span} {es : List (Expr Span)} {s : Span} : Leaf (.new e es s) := ⟨rfl⟩

instance leaf {e : Expr Span} [h : Leaf e] : Flat (k + 1) (Pure.pure e : ParseM (Expr Span)) :=
  pure (h.eq ▸ Nat.le_add_left 1 k)

instance someLeaf {e : Expr Span} [h : Leaf e] :
    Flat (k + 1) (Pure.pure (some e) : ParseM (Option (Expr Span))) :=
  pure (h.eq ▸ Nat.le_add_left 1 k)

instance noExpr : Flat k (Pure.pure none : ParseM (Option (Expr Span))) := pure (Nat.zero_le k)

/-! ## Loops -/

section
variable [Depth α]

theorem iterate {step : α → ParseM (Option α)} {a : α} (ha : depth a ≤ k)
    (hstep : ∀ {a b s s'}, step a s = .ok (some b) s' → depth b ≤ k) :
    Flat k (Parse.iterate step a) := by
  refine ⟨fun hok => ?_⟩
  refine iterate_keeps (I := fun b _ => depth b ≤ k) ha hok fun {b x _ _} hb h => ?_
  cases x with
  | none => exact hb
  | some c => exact hstep h

end

/-- The depth of a list is the greatest depth of an element. -/
theorem collect_go {γ : Type} [Depth γ] [Depth (List γ)] (hnil : depth ([] : List γ) = 0)
    (hcons : ∀ (a : γ) as, depth (a :: as) = max (depth a) (depth as)) {step : ParseM (Item γ)}
    (hstep : Flat k step) (fuel : List Token) : Flat k (collect.go step fuel) := by
  induction fuel with
  | nil => exact pure (by omega)
  | cons _ fuel ih =>
    refine hstep.bind fun item hitem => ?_
    cases item with
    | stop => exact pure (by omega)
    | last a =>
      have hitem : depth a ≤ k := hitem
      exact pure (by rw [hcons]; omega)
    | more a =>
      have hitem : depth a ≤ k := hitem
      refine ih.bind fun as has => pure ?_
      rw [hcons]
      omega

instance slots {step : ParseM (Item (Option (Expr Span)))} [hstep : Flat k step] :
    Flat k (collect step) :=
  ⟨fun {s} _ _ h => (collect_go rfl (fun _ _ => rfl) hstep s.ahead).le h⟩

instance properties {step : ParseM (Item (Property Span))} [hstep : Flat k step] :
    Flat k (collect step) :=
  ⟨fun {s} _ _ h => (collect_go rfl (fun _ _ => rfl) hstep s.ahead).le h⟩

instance commaItem [Depth α] {element : ParseM α} [h : Flat k element] :
    Flat k (Parse.commaItem element) := by
  refine h.bind fun a ha => ?_
  have hitem : ∀ b : Bool, depth (if b then Item.more a else Item.last a) ≤ k := by
    rintro (_ | _) <;> exact ha
  have := fun b => pure (hitem b)
  exact skip

instance upTo [Depth α] {mark : String} {item : ParseM (Item α)} [Flat k item] :
    Flat k (Parse.upTo mark item) := by
  have : Flat k (Pure.pure .stop : ParseM (Item α)) := pure (Nat.zero_le k)
  unfold Parse.upTo
  infer_instance

end Flat

/-! ## Routines -/

/-- The routines one level deeper give expressions that are not deep. -/
class Deeper.Flat (k : Nat) (d : Deeper) : Prop where
  assignment : Parse.Flat k d.assignment
  construction : Parse.Flat (k + 1) d.construction

attribute [instance] Deeper.Flat.assignment Deeper.Flat.construction

namespace Flat

variable {k : Nat} {d : Deeper} [hd : d.Flat (k + 1)]

/-! ### Literals with elements -/

omit hd in
instance propertyOfLeaf {key : PropertyKey Span} {value : Expr Span} [h : Leaf value]
    {kind : PropertyKind} {computed shorthand method : Bool} {s : Span} :
    Flat (k + 1) (Pure.pure ⟨key, value, kind, computed, shorthand, method, s⟩ :
      ParseM (Property Span)) :=
  pure (Nat.le_trans (Nat.le_of_eq h.eq) (Nat.le_add_left 1 k))

omit hd in
instance propertyOfValue {m : ParseM (Expr Span)} [hm : Flat k m] {start : Span}
    {key : PropertyKey Span} {kind : PropertyKind} {computed shorthand method : Bool} :
    Flat k (m >>= fun value => Parse.spanFrom start >>= fun s =>
      Pure.pure (Property.mk key value kind computed shorthand method s)) :=
  hm.bind fun _ h => after fun _ => pure h

omit hd in
/-- The property that a key alone is. -/
theorem shorthand (first : Token) (start : Span) (kind : PropertyKind) (key : PropertyKey Span) :
    Flat (k + 1) (match key with
      | .ident id =>
        if isReference first then do
          return ⟨key, .ident id, kind, false, true, false, ← Parse.spanFrom start⟩
        else Parse.fail (.missingMark .propertyColon)
      | _ => Parse.fail (.missingMark .propertyColon) : ParseM (Property Span)) := by
  cases key <;> infer_instance

instance property : Flat (k + 1) (Parse.property d) := by
  unfold Parse.property
  dsimp only
  have := @shorthand k
  infer_instance

instance arrayLiteral : Flat (k + 2) (Parse.arrayLiteral d) := by
  have hhole : Flat (k + 1) (Pure.pure (.more none) : ParseM (Item (Option (Expr Span)))) :=
    pure (Nat.zero_le _)
  have hslot : Flat (k + 1) (some <$> d.assignment) := hd.assignment.bind fun e he => pure he
  unfold Parse.arrayLiteral
  refine after fun start => after fun _ => bind (j := k + 1) inferInstance fun elements h => ?_
  exact after fun _ => after fun s => pure (Nat.succ_le_succ h)

instance objectLiteral : Flat (k + 2) (Parse.objectLiteral d) := by
  unfold Parse.objectLiteral
  refine after fun start => after fun _ => bind (j := k + 1) inferInstance fun properties h => ?_
  exact after fun _ => after fun s => pure (Nat.succ_le_succ h)

/-! ### Operands -/

instance group : Flat (k + 2) (Parse.group d) :=
  after fun _ => hd.assignment.bind fun _ h => after fun _ => pure (Nat.le_succ_of_le h)

instance templateLiteral : Flat (k + 1) Parse.templateLiteral := by
  unfold Parse.templateLiteral
  infer_instance

instance keywordPrimary : Flat (k + 2) (Parse.keywordPrimary d) := by
  unfold Parse.keywordPrimary
  infer_instance

instance markPrimary : Flat (k + 2) (Parse.markPrimary d) := by
  unfold Parse.markPrimary
  infer_instance

instance primary : Flat (k + 2) (Parse.primary d) := by
  unfold Parse.primary
  refine after fun t => ?_
  cases t.kind <;> infer_instance

instance memberAccess? {start : Span} {object : Expr Span} :
    Flat (k + 2) (Parse.memberAccess? d start object) := by
  unfold Parse.memberAccess?
  infer_instance

instance chainLink? {start : Span} {e : Expr Span} : Flat (k + 2) (Parse.chainLink? d start e) := by
  unfold Parse.chainLink?
  refine after fun b => ?_
  split
  · infer_instance
  · refine bind (j := k + 2) memberAccess? fun access h => ?_
    cases access with
    | none => infer_instance
    | some access => exact pure h

instance chain : Flat (k + 2) (Parse.chain d) := by
  refine after fun start => bind (j := k + 2) primary fun e he => iterate he fun h => ?_
  exact chainLink?.le h

instance construction : Flat (k + 1) (Parse.construction d) := by
  unfold Parse.construction
  infer_instance

instance update : Flat (k + 2) (Parse.update d) := by
  unfold Parse.update
  refine after fun start => after fun op => ?_
  cases op with
  | some op => infer_instance
  | none =>
    refine bind (j := k + 2) chain fun e he => after fun op => ?_
    cases op with
    | some op => infer_instance
    | none => exact pure he

instance unary : Flat (k + 2) (Parse.unary d) := by
  unfold Parse.unary
  infer_instance

/-! ### Operators -/

omit hd in
theorem leftAssociative {α : Type} {operator : ParseM (Option α)}
    {build : α → Expr Span → Expr Span → Span → Expr Span} {operand : ParseM (Expr Span)}
    (hbuild : ∀ op left right s, Leaf (build op left right s)) (h : Flat (k + 1) operand) :
    Flat (k + 1) (Parse.leftAssociative operator build operand) := by
  refine after fun start => h.bind fun first hfirst => iterate hfirst fun {left} _ _ _ hstep => ?_
  have hle := fun hflat : Flat (k + 1) (operator >>= _) => hflat.le hstep
  exact hle inferInstance

omit hd in
theorem binaryLevel {ops : List BinaryOp} {operand : ParseM (Expr Span)}
    (h : Flat (k + 1) operand) : Flat (k + 1) (Parse.binaryLevel ops operand) :=
  leftAssociative (fun _ _ _ _ => inferInstance) h

omit hd in
theorem logicalLevel {op : LogicalOp} {operand : ParseM (Expr Span)}
    (h : Flat (k + 1) operand) : Flat (k + 1) (Parse.logicalLevel op operand) :=
  leftAssociative (fun _ _ _ _ => inferInstance) h

theorem logicalOr : Flat (k + 2) (Parse.logicalOr d) :=
  logicalLevel <| logicalLevel <| binaryLevel <| binaryLevel <| binaryLevel <| binaryLevel unary

theorem conditional : Flat (k + 2) (Parse.conditional d) := by
  unfold Parse.conditional
  refine after fun start => bind (j := k + 2) logicalOr fun test htest => after fun b => ?_
  have : Flat (k + 2) (Pure.pure test : ParseM (Expr Span)) := pure htest
  infer_instance

theorem assignment : Flat (k + 2) (Parse.assignment d) := by
  unfold Parse.assignment
  refine after fun start => bind (j := k + 2) conditional fun left hleft => after fun op => ?_
  cases op with
  | some op => infer_instance
  | none => exact pure hleft

end Flat

/-! ## Levels -/

/-- What is parsed with `n` levels of nesting left is no deeper than that, a shorthand apart. -/
theorem level_flat : ∀ n, (level n).Flat (n + 1)
  | 0 => ⟨Flat.fail, Flat.fail⟩
  | n + 1 => by
    have := level_flat n
    exact ⟨Flat.assignment, Flat.construction⟩

end Parse

end JsSyntax
