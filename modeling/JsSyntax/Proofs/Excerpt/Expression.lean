import JsSyntax.Proofs.Excerpt.Recurs
import JsSyntax.Proofs.Excerpt.Routines

/-! # Where the expressions of a tree stand

`Sited D S e`: the span of `e` covers some of the tokens ahead in the state `S`, and these tokens
are read as `e` when they stand alone. Every expression that a routine builds is sited, because the
routine that has built it recurs; and so, level by level, are all expressions of a tree but those in
what a class extends (`level_finding`).
-/

set_option autoImplicit false
-- The whole text of a routine goes through the search for an instance.
set_option synthInstance.maxSize 1024

namespace JsSyntax

open Grammar

namespace Parse

/-- The expression spans some of the tokens ahead in `S`, which are read as it when they stand
alone. -/
def Sited (D : Deeper) (S : State) (e : Expr Span) : Prop :=
  ∃ u, u <:+: S.rest ∧ Reading.spanned.Covers u e.span ∧ Alone D u e

theorem ne_nil_of_covers {u : List Token} {sp : Span} (h : Reading.spanned.Covers u sp) :
    u ≠ [] := by
  obtain ⟨first, _, hfirst, -⟩ := h
  rintro rfl
  cases hfirst

section
variable {D : Deeper} {S s s' : State} {e : Expr Span} {u : List Token}

theorem Recurs.sited (h : Recurs (assignment D) e s s') (hs : Reached S s) (hu : s.Reads u s')
    (hspan : Reading.spanned.Covers u e.span) : Sited D S e := by
  obtain ⟨v, hv⟩ := hs
  refine ⟨u, ⟨v, s'.rest, ?_⟩, hspan, h.alone hu (ne_nil_of_covers hspan)⟩
  rw [hv.rest, hu.rest, List.append_assoc]

/-- An expression from the state `s` on that has been built of known ones. -/
theorem Recurs.all (h : Recurs (assignment D) e s s') (hs : Reached S s) (hu : s.Reads u s')
    (hne : u ≠ []) (hspan : e.span = s'.spanFrom s.current.span)
    (hc : ∀ c ∈ e.children, Node.All (Sited D S) c) : (Node.expr e).All (Sited D S) :=
  .expr (h.sited hs hu (hspan ▸ hu.covers hne)) hc

end

/-! ## Children -/

namespace Held

variable {Q : Expr Span → Prop} {K : List (Node Span)}

instance children {e : Expr Span} [h : Known (Node.All Q) K (parts e)] :
    Known (Node.All Q) K e.children :=
  ⟨fun hK _ hc => (h.all hK _ (List.mem_singleton_self _)).child_expr hc⟩

instance childrenArray {es : List (Option (Expr Span))} {s : Span}
    [Known (Node.All Q) K (parts es)] : Known (Node.All Q) K (Expr.children (.array es s)) :=
  slots

instance childrenObject {ps : List (Property Span)} {s : Span} [Known (Node.All Q) K (parts ps)] :
    Known (Node.All Q) K (Expr.children (.object ps s)) := properties

instance childrenFunction {f : Func Span} [h : Known (Node.All Q) K (parts f)] :
    Known (Node.All Q) K (Expr.children (.function f)) := h

instance childrenTemplate {quasi : TemplateElement Span} {s : Span} :
    Known (Node.All Q) K (Expr.children (.template [quasi] [] s)) := node rfl (h := Known.nil)

instance childrenLiteral {value : Literal Span} :
    Known (Node.All Q) K (Expr.children (.literal value)) := node rfl (h := Known.nil)

instance childrenIdent {id : Ident Span} : Known (Node.All Q) K (Expr.children (.ident id)) :=
  node rfl (h := Known.nil)

instance childrenThis {s : Span} : Known (Node.All Q) K (Expr.children (.this s)) := Known.nil

instance childrenSuper {s : Span} : Known (Node.All Q) K (Expr.children (.super s)) := Known.nil

/-! ## Properties -/

instance property {key : PropertyKey Span} {value : Expr Span} {kind : PropertyKind}
    {computed shorthand method : Bool} {s : Span} [h : Known (Node.All Q) K (parts key)]
    [h' : Known (Node.All Q) K (parts value)] :
    Known (Node.All Q) K (parts (Property.mk key value kind computed shorthand method s)) := by
  have hvalue : Known (Node.All Q) K
      [(Property.mk key value kind computed shorthand method s).valueNode] := by
    unfold Property.valueNode
    split
    · exact h'
    · cases value with
      | function f => exact children (h := h')
      | _ => exact h'
  exact node rfl (h := @Known.append _ _ _ _ _ h hvalue)

/-- The function of a method does not have to be known as an expression. -/
instance method {key : PropertyKey Span} {f : Func Span} {kind : PropertyKind}
    {computed shorthand : Bool} {s : Span} [h : Known (Node.All Q) K (parts key)]
    [h' : Known (Node.All Q) K (parts f)] :
    Known (Node.All Q) K
      (parts (Property.mk key (.function f) kind computed shorthand (kind = .init) s)) := by
  have hvalue : (Property.mk key (.function f) kind computed shorthand (kind = .init) s).valueNode =
      .function f := by
    cases kind <;> rfl
  refine node rfl (h := ?_)
  show Known (Node.All Q) K [key.node, (Property.mk key (.function f) kind computed shorthand
    (kind = .init) s).valueNode]
  rw [hvalue]
  exact @Known.append _ _ _ _ _ h h'

end Held

namespace Finding

variable {Q : Expr Span → Prop} {S : State} {K : List (Node Span)} {d : Deeper} [d.Regular]
  [d.Finding S Q]

/-! ## Primaries -/

instance arrayLiteral : Gathers S (Node.All Q) K Expr.children (Parse.arrayLiteral d) := by
  unfold Parse.arrayLiteral
  infer_instance

omit [d.Regular] [d.Finding S Q] in
instance objectLiteral [∀ K, Gathers S (Node.All Q) K parts (Parse.property d)] :
    Gathers S (Node.All Q) K Expr.children (Parse.objectLiteral d) := by
  unfold Parse.objectLiteral
  infer_instance

instance group : Gathers S (Node.All Q) K parts (Parse.group d) := by
  unfold Parse.group
  infer_instance

instance groupChildren : Gathers S (Node.All Q) K Expr.children (Parse.group d) := by
  unfold Parse.group
  infer_instance

instance templateLiteral : Gathers S (Node.All Q) K Expr.children Parse.templateLiteral := by
  unfold Parse.templateLiteral
  infer_instance

instance keywordPrimary : Gathers S (Node.All Q) K Expr.children (Parse.keywordPrimary d) := by
  unfold Parse.keywordPrimary
  infer_instance

instance arguments : Gathers S (Node.All Q) K parts (Parse.arguments d) := by
  unfold Parse.arguments
  infer_instance

instance optionalArguments : Gathers S (Node.All Q) K parts (Parse.optionalArguments d) := by
  unfold Parse.optionalArguments
  infer_instance

end Finding

section
variable {D d : Deeper} [d.Regular] (hd : D.Repeats d) {S : State} {Q : Expr Span → Prop}
  {K : List (Node Span)}

/-- The variable that a key stands for as well, when it is alone. -/
def references (first : Token) : PropertyKey Span → List (Node Span)
  | .ident id => if isReference first then [.expr (.ident id)] else []
  | _ => []

omit [d.Regular] in
/-- A name that is a key alone is read as a variable as well. -/
theorem primary_of_propertyKey {s s' : State} {id : Ident Span} {computed : Bool}
    (h : propertyKey d s = .ok (.ident id, computed) s') (href : isReference s.current) :
    primary d s = .ok (.ident id) s' := by
  have hkey : s.current.kind ≠ .punctuation ∧ (isName s.current : Bool) := by
    simp only [isReference, Bool.or_eq_true, Bool.and_eq_true, beq_iff_eq] at href
    rcases href with hk | ⟨hk, -⟩ <;> simp [isName, hk]
  have hbracket : ¬ s.current.isPunctuation "[" := fun hb => hkey.1 (Token.is_iff.1 hb).1
  simp only [propertyKey, peek_bind, if_neg hbracket, if_pos hkey.2, bind_eq_ok, pure_eq_ok,
    Prod.mk.injEq, PropertyKey.ident.injEq] at h
  obtain ⟨_, s₁, hadv, ⟨rfl, -⟩, rfl⟩ := h
  have hrest : (discard advance >>= fun _ => pure (.ident ⟨s.current.value, s.current.span⟩) :
      ParseM (Expr Span)) s = .ok (.ident ⟨s.current.value, s.current.span⟩) s₁ := bind_of_ok hadv
  simp only [isReference, Bool.or_eq_true, Bool.and_eq_true, beq_iff_eq] at href
  rw [primary, peek_bind]
  rcases href with hk | ⟨hk, hv⟩ <;> simp only [hk]
  · exact hrest
  · have hthis : s.current.value ≠ "this" ∧ s.current.value ≠ "super" := by
      constructor <;> intro heq <;> rw [heq] at hv <;> revert hv <;> decide
    rw [keywordPrimary, peek_bind, if_neg hthis.1, if_neg hthis.2, if_pos hv]
    exact hrest

namespace Finding

variable [d.Finding S (Sited D S)]

include hd in
/-- Behind a key it is known what that stands for if it is alone. -/
theorem key_bind {β : Type} {g : β → List (Node Span)}
    {k : Token → PropertyKey Span × Bool → ParseM β}
    (hk : ∀ first key, Gathers S (Node.All (Sited D S))
      (K ++ parts key ++ references first key.1) g (k first key)) :
    Gathers S (Node.All (Sited D S)) K g
      (peek >>= fun first => Parse.propertyKey d >>= fun key => k first key) := by
  refine ⟨fun {s b s'} hs hK h => ?_⟩
  rw [peek_bind] at h
  obtain ⟨⟨key, computed⟩, s₁, hkey, h⟩ := bind_eq_ok.mp h
  obtain ⟨hs₁, hparts⟩ := (propertyKey (K := K)).gathers hs hK hkey
  refine (hk s.current (key, computed)).gathers hs₁ (fun x hx => ?_) h
  rcases List.mem_append.1 hx with hx | hx
  · exact (List.mem_append.1 hx).elim (hK x) (hparts x)
  cases key with
  | ident id =>
    simp only [references] at hx
    split at hx
    · next href =>
      obtain rfl := List.mem_singleton.1 hx
      have hrecurs := primary_recurs hd (primary_of_propertyKey hkey href)
      obtain ⟨u, hu, -, -, hid⟩ := propertyKey_reads Deeper.Regular.sound hkey
      obtain ⟨rfl, rfl⟩ := hid id rfl
      exact .expr (hrecurs.sited hs hu (covers_single _)) (List.forall_mem_singleton.2 (.ident _))
    · exact absurd hx List.not_mem_nil
  | literal => exact absurd hx List.not_mem_nil
  | computed => exact absurd hx List.not_mem_nil

omit [d.Regular] [d.Finding S (Sited D S)] in
/-- The property that a key alone is. -/
theorem shorthand (first : Token) (start : Span) (kind : PropertyKind) (key : PropertyKey Span)
    [Known (Node.All Q) K (parts key)] [h : Known (Node.All Q) K (references first key)] :
    Gathers S (Node.All Q) K parts (match key with
      | .ident id =>
        if isReference first then do
          return ⟨key, .ident id, kind, false, true, false, ← Parse.spanFrom start⟩
        else Parse.fail (.missingMark .propertyColon)
      | _ => Parse.fail (.missingMark .propertyColon) : ParseM (Property Span)) := by
  cases key with
  | ident id =>
    dsimp only
    split
    · next href =>
      have : Known (Node.All Q) K (parts (Expr.ident id)) := by
        rwa [references, if_pos href] at h
      infer_instance
    · infer_instance
  | literal => infer_instance
  | computed => infer_instance

include hd in
theorem property : Gathers S (Node.All (Sited D S)) K parts (Parse.property d) := by
  unfold Parse.property
  simp only [ite_bind]
  refine Gathers.andThen inferInstance fun start => Gathers.andThen inferInstance fun accessor => ?_
  refine Gathers.andThen inferInstance fun async => ?_
  refine Gathers.andThen inferInstance fun generator => ?_
  refine key_bind hd fun first key => ?_
  have := @shorthand
  infer_instance

end Finding

namespace Finding

variable [d.Finding S (Sited D S)]

include hd in
theorem primary : Gathers S (Node.All (Sited D S)) K Expr.children (Parse.primary d) := by
  have := fun K => property (K := K) (S := S) hd
  unfold Parse.primary Parse.markPrimary
  refine Gathers.andThen inferInstance fun t => ?_
  cases t.kind <;> infer_instance

end Finding

end

/-! ## What the levels find -/

/-- All expressions in what the routine gives are sited. -/
def Finds (D : Deeper) (S : State) (m : ParseM (Expr Span)) : Prop :=
  ∀ ⦃s e s'⦄, Reached S s → m s = .ok e s' → (Node.expr e).All (Sited D S)

section
variable {α : Type} {S s s' : State} {P : Node Span → Prop} {f : α → List (Node Span)}
  {m : ParseM α} {a : α}

theorem Gathers.all [h : Gathers S P [] f m] (hs : Reached S s) (hok : m s = .ok a s') :
    ∀ x ∈ f a, P x := (h.gathers hs (List.forall_mem_nil _) hok).2

theorem Reached.ok [Moves m] (hs : Reached S s) (h : m s = .ok a s') : Reached S s' := by
  obtain ⟨u, hu⟩ := Moves.ok h
  exact hs.trans hu

theorem Steps.reads {step : α → ParseM (Option α)} [∀ a, Moves (step a)] {a₀ : α}
    (h : Steps step a₀ s a s') : ∃ u, s.Reads u s' := by
  induction h with
  | refl => exact ⟨[], .refl s⟩
  | more _ hstep _ ih =>
    obtain ⟨u, hu⟩ := ih
    obtain ⟨v, hv⟩ := Moves.ok hstep
    exact ⟨_, hu.trans hv⟩

end

theorem Gathers.finds {D : Deeper} {S : State} {m : ParseM (Expr Span)}
    [Gathers S (Node.All (Sited D S)) [] parts m] : Finds D S m :=
  fun _ _ _ hs hok => Gathers.all (f := parts) hs hok _ (List.mem_singleton_self _)

theorem Gathers.finds_all {D : Deeper} {S s s' : State} {m : ParseM (List (Expr Span))}
    {es : List (Expr Span)} [Gathers S (Node.All (Sited D S)) [] parts m] (hs : Reached S s)
    (hok : m s = .ok es s') : ∀ n ∈ es.map .expr, Node.All (Sited D S) n := by
  have hall := Gathers.all (P := Node.All (Sited D S)) (f := parts) hs hok
  rwa [parts_eq_map fun _ => rfl] at hall

theorem Finds.gathers {D : Deeper} {S : State} {K : List (Node Span)} {m : ParseM (Expr Span)}
    [Moves m] (h : Finds D S m) : Gathers S (Node.All (Sited D S)) K parts m :=
  ⟨fun hs _ hok => ⟨hs.ok hok, List.forall_mem_singleton.2 (h hs hok)⟩⟩

section
variable {D d : Deeper} [d.Regular] (hd : D.Repeats d) {S : State} [d.Finding S (Sited D S)]
  {s s₁ s₂ s' : State} {e first : Expr Span}

/-! ## Primaries -/

theorem covers_of_primary {u : List Token} (h : Derives Reading.spanned .primary u e)
    (hopen : ∀ t ∈ u.head?, ¬ Reading.spanned.IsMark t "(") :
    Reading.spanned.Covers u e.span := by
  cases h with
  | group hstart _ _ => exact absurd hstart (hopen _ rfl)
  | functionExpression hf => cases hf with | function _ _ _ _ _ _ h => exact h
  | reference _ h => exact h
  | this _ h => exact h
  | super _ h => exact h
  | number _ _ h => exact h
  | string _ h => exact h
  | boolean _ h => exact h
  | null _ h => exact h
  | template _ h => exact h
  | new _ _ _ h => exact h
  | array _ _ _ h => exact h
  | object _ _ _ h => exact h

include hd in
theorem primary_finds : Finds D S (primary d) := by
  intro s e s' hs h
  by_cases hopen : Reading.spanned.IsMark s.current "("
  · have hgroup : primary d s = group d s := by
      obtain ⟨hk, hv⟩ : s.current.kind = .punctuation ∧ s.current.value = "(" := hopen
      rw [primary, peek_bind, hk]
      show markPrimary d s = _
      rw [markPrimary, peek_bind, if_pos hv]
    exact Gathers.finds hs (hgroup ▸ h)
  · obtain ⟨u, hu, hde⟩ := primary_parses Deeper.Regular.sound h
    have hne := hde.ne_nil rfl
    have := Finding.primary (K := []) (S := S) hd
    refine .expr ((primary_recurs hd h).sited hs hu (covers_of_primary hde fun t ht => ?_))
      (Gathers.all hs h)
    rw [hu.current hne, Option.mem_some_iff] at ht
    exact ht ▸ hopen

/-! ## Accesses and calls -/

omit [d.Regular] in
theorem memberAccess?_builds {start : Span} {object : Expr Span} (hs : Reached S s)
    (h : memberAccess? d start object s = .ok (some e) s') : e.span = s'.spanFrom start ∧
      ∃ n, e.children = [.expr object, n] ∧ n.All (Sited D S) := by
  simp only [memberAccess?, bind_eq_ok] at h
  obtain ⟨b, s₁, hopen, h⟩ := h
  cases acceptMark_accepted hopen with
  | yes _ hr =>
    simp only [if_true, spanFrom_bind, bind_eq_ok, pure_eq_ok, Option.some.injEq] at h
    obtain ⟨property, s₂, hproperty, _, s₃, -, rfl, rfl⟩ := h
    exact ⟨rfl, _, rfl, Gathers.finds (hs.trans hr) hproperty⟩
  | no =>
    simp only [Bool.false_eq_true, if_false, bind_eq_ok] at h
    obtain ⟨b, s₁, hpoint, h⟩ := h
    cases acceptMark_accepted hpoint with
    | yes _ hr =>
      simp only [if_true, spanFrom_bind, bind_eq_ok, pure_eq_ok, Option.some.injEq] at h
      obtain ⟨id, s₂, -, rfl, rfl⟩ := h
      exact ⟨rfl, _, rfl, .ident id⟩
    | no => cases (pure_eq_ok.mp h).1

theorem chainLink?_builds {start : Span} {callee : Expr Span} (hs : Reached S s)
    (h : chainLink? d start callee s = .ok (some e) s') : e.span = s'.spanFrom start ∧
      ∃ ns, e.children = .expr callee :: ns ∧ ∀ n ∈ ns, Node.All (Sited D S) n := by
  simp only [chainLink?, bind_eq_ok] at h
  obtain ⟨b, s₁, hopen, h⟩ := h
  cases acceptMark_accepted hopen with
  | yes _ hr =>
    simp only [if_true, spanFrom_bind, bind_eq_ok, pure_eq_ok, Option.some.injEq] at h
    obtain ⟨args, s₂, hargs, rfl, rfl⟩ := h
    exact ⟨rfl, _, rfl, Gathers.finds_all (hs.trans hr) hargs⟩
  | no =>
    simp only [Bool.false_eq_true, if_false, bind_eq_ok] at h
    obtain ⟨x, s₁, haccess, h⟩ := h
    cases x with
    | some access =>
      obtain ⟨⟨⟩, rfl⟩ := pure_eq_ok.mp h
      obtain ⟨hspan, n, hn, hall⟩ := memberAccess?_builds (D := D) hs haccess
      exact ⟨hspan, [n], hn, List.forall_mem_singleton.2 hall⟩
    | none =>
      simp only [bind_eq_ok] at h
      obtain ⟨b, s₂, hnew, h⟩ := h
      cases acceptKeyword_accepted hnew with
      | yes _ hr =>
        simp only [if_true, spanFrom_bind, bind_eq_ok, pure_eq_ok, Option.some.injEq] at h
        obtain ⟨args, s₃, hargs, rfl, rfl⟩ := h
        exact ⟨rfl, _, rfl, Gathers.finds_all ((hs.ok haccess).trans hr) hargs⟩
      | no => cases (pure_eq_ok.mp h).1

omit [d.Regular] [d.Finding S (Sited D S)] in
/-- An access to a member is one of the links of a chain. -/
theorem chainLink?_of_memberAccess? {start : Span} {object : Expr Span}
    (h : memberAccess? d start object s = .ok (some e) s') :
    chainLink? d start object s = .ok (some e) s' := by
  have hno : ∀ mark, ¬ s.current.isPunctuation mark → acceptMark mark s = .ok false s := by
    intro mark (hmark : ¬ s.current.is .punctuation mark)
    rw [acceptMark, accept, isNext_bind, if_neg hmark]
    rfl
  have hopen : ¬ s.current.isPunctuation "(" := by
    intro hopen
    have hother : ∀ mark, mark ≠ "(" → ¬ s.current.isPunctuation mark := fun mark hne hmark =>
      hne ((Token.is_iff.1 hmark).2.symm.trans (Token.is_iff.1 hopen).2)
    rw [memberAccess?, bind_of_ok (hno "[" (hother _ (by decide)))] at h
    have h := (bind_of_ok (hno "." (hother _ (by decide)))).symm.trans h
    cases (pure_eq_ok.mp h).1
  rw [chainLink?, bind_of_ok (hno _ hopen)]
  exact bind_of_ok h

/-- What a primary and the links behind it are. -/
structure Linked (D : Deeper) (d : Deeper) (S s : State) (first : Expr Span) (s₁ : State)
    (e : Expr Span) (s' : State) : Prop where
  steps : Steps (chainLink? d s.current.span) first s₁ e s'
  all : (Node.expr e).All (Sited D S)

include hd in
theorem Linked.more {e' : Expr Span} (hs : Reached S s) (hfirst : primary d s = .ok first s₁)
    (h : Linked D d S s first s₁ e s₂)
    (hlink : chainLink? d s.current.span e s₂ = .ok (some e') s') :
    Linked D d S s first s₁ e' s' := by
  have hsteps := h.steps.more hlink (Alignment.chainLink?_lt hlink)
  obtain ⟨u, hu, hde⟩ := primary_parses Deeper.Regular.sound hfirst
  have hne := hde.ne_nil rfl
  obtain ⟨v, hv⟩ := h.steps.reads
  obtain ⟨w, hw⟩ := hsteps.reads
  obtain ⟨hspan, ns, hns, hall⟩ := chainLink?_builds (D := D) ((hs.trans hu).trans hv) hlink
  refine ⟨hsteps, (chain_recurs hd hfirst hsteps).all hs (hu.trans hw) (by simp [hne]) hspan ?_⟩
  rw [hns]
  exact List.forall_mem_cons.2 ⟨h.all, hall⟩

include hd in
theorem chain_finds : Finds D S (chain d) := by
  intro s e s' hs h
  simp only [chain, peek_bind, bind_eq_ok] at h
  obtain ⟨first, s₁, hfirst, h⟩ := h
  have hlinked : Linked D d S s first s₁ first s₁ := ⟨.refl, primary_finds hd hs hfirst⟩
  refine (iterate_keeps (I := Linked D d S s first s₁) hlinked h ?_).all
  intro a x s₂ s₃ hI hlink
  cases x with
  | none => exact Alignment.chainLink?_none hlink ▸ hI
  | some b => exact hI.more hd hs hfirst hlink

include hd in
theorem construction_gathers {K : List (Node Span)} :
    Gathers S (Node.All (Sited D S)) K Expr.children (construction d) := by
  refine ⟨fun {s e s'} hs _ h => ⟨hs.ok h, ?_⟩⟩
  simp only [construction, peek_bind, spanFrom_bind, bind_eq_ok, pure_eq_ok] at h
  obtain ⟨_, s₁, hadvance, first, s₂, hfirst, callee, s₃, hcallee, args, s₄, hargs, rfl, rfl⟩ := h
  have hs₁ := hs.ok hadvance
  have hlinked : Linked D d S s₁ first s₂ first s₂ := ⟨.refl, primary_finds hd hs₁ hfirst⟩
  have hlinks := iterate_keeps (I := Linked D d S s₁ first s₂) hlinked hcallee
    fun {a x _ _} hI h => by
      cases x with
      | none => exact Alignment.memberAccess?_none h ▸ hI
      | some b => exact hI.more hd hs₁ hfirst (chainLink?_of_memberAccess? h)
  have hall := Gathers.finds_all (D := D) ((hs₁.ok hfirst).ok hcallee) hargs
  exact List.forall_mem_cons.2 ⟨hlinks.all, hall⟩

/-! ## Operators with one operand -/

include hd in
theorem update_finds : Finds D S (update d) := by
  intro s e s' hs hupdate
  obtain ⟨u, hu, hde⟩ := update_parses Deeper.Regular.sound hupdate
  have hbuilt := (update_recurs hd hupdate).all hs hu (hde.ne_nil rfl)
  have h := hupdate
  simp only [update, peek_bind, bind_eq_ok] at h
  obtain ⟨x, s₁, hop, h⟩ := h
  cases x with
  | some op =>
    simp only [spanFrom_bind, bind_eq_ok, pure_eq_ok] at h
    obtain ⟨argument, s₂, hargument, _, s₃, -, rfl, rfl⟩ := h
    exact hbuilt rfl (List.forall_mem_singleton.2 (Gathers.finds (hs.ok hop) hargument))
  | none =>
    simp only [bind_eq_ok] at h
    obtain ⟨argument, s₂, hchain, x, s₃, hnext, h⟩ := h
    have hargument := chain_finds hd (hs.ok hop) hchain
    cases x with
    | some op =>
      simp only [spanFrom_bind, bind_eq_ok, pure_eq_ok] at h
      obtain ⟨_, s₄, -, _, s₅, -, rfl, rfl⟩ := h
      exact hbuilt rfl (List.forall_mem_singleton.2 hargument)
    | none =>
      obtain ⟨rfl, -⟩ := pure_eq_ok.mp h
      exact hargument

include hd in
theorem unary_finds : Finds D S (unary d) := by
  intro s e s' hs hunary
  obtain ⟨u, hu, hde⟩ := unary_parses Deeper.Regular.sound hunary
  have hbuilt := (unary_recurs hd hunary).all hs hu (hde.ne_nil rfl)
  have h := hunary
  simp only [unary, peek_bind, bind_eq_ok] at h
  obtain ⟨b, s₁, hawait, h⟩ := h
  have hs₁ := hs.ok hawait
  split at h
  · simp only [spanFrom_bind, bind_eq_ok, pure_eq_ok] at h
    obtain ⟨argument, s₂, hargument, rfl, rfl⟩ := h
    exact hbuilt rfl (List.forall_mem_singleton.2 (Gathers.finds hs₁ hargument))
  · simp only [bind_eq_ok] at h
    obtain ⟨x, s₂, hop, h⟩ := h
    cases x with
    | some op =>
      simp only [spanFrom_bind, bind_eq_ok, pure_eq_ok] at h
      obtain ⟨argument, s₂, hargument, rfl, rfl⟩ := h
      exact hbuilt rfl (List.forall_mem_singleton.2 (Gathers.finds (hs₁.ok hop) hargument))
    | none => exact update_finds hd (hs₁.ok hop) h

end

/-! ## Operators with two operands -/

section
variable {D : Deeper} {S : State} {γ : Type} {symbol : γ → String} {ops : List γ}
  {build : γ → Expr Span → Expr Span → Span → Expr Span} {operand operand' : ParseM (Expr Span)}
  [Moves operand] [Advances operand]

/-- The operands of a level are joined to expressions that are sited as far as the level has got. -/
theorem leftAssociative_finds (hm : Finds D S operand)
    (hspan : ∀ op left right sp, (build op left right sp).span = sp)
    (hchildren : ∀ op left right sp,
      (build op left right sp).children = [.expr left, .expr right])
    (hrecurs : ∀ {e first s s₁ s'}, operand s = .ok first s₁ →
      Steps (Alignment.operation? (acceptOneOf .operator symbol ops) build operand s.current.span)
        first s₁ e s' → Recurs (assignment D) e s s') :
    Finds D S (leftAssociative (acceptOneOf .operator symbol ops) build operand) := by
  intro s e s' hs h
  simp only [leftAssociative, peek_bind, bind_eq_ok] at h
  obtain ⟨first, s₁, hfirst, h⟩ := h
  obtain ⟨u, hu⟩ := Moves.ok hfirst
  have hne : u ≠ [] := by
    rintro rfl
    exact absurd (Advances.lt hfirst) (by simp [hu.rest])
  have hstart : Steps (Alignment.operation? (acceptOneOf .operator symbol ops) build operand
      s.current.span) first s₁ first s₁ ∧ (Node.expr first).All (Sited D S) :=
    ⟨.refl, hm hs hfirst⟩
  refine (iterate_keeps (I := fun e s₂ => Steps (Alignment.operation? (acceptOneOf .operator symbol
    ops) build operand s.current.span) first s₁ e s₂ ∧ (Node.expr e).All (Sited D S))
    hstart h ?_).2
  rintro left x s₂ s₃ ⟨hsteps, hleft⟩ hstep
  cases x with
  | none => exact Alignment.operation?_none hstep ▸ ⟨hsteps, hleft⟩
  | some e =>
    obtain ⟨v, hv⟩ := hsteps.reads
    have hsteps' := hsteps.more hstep (Alignment.operation?_lt hstep)
    obtain ⟨w, hw⟩ := hsteps'.reads
    refine ⟨hsteps', ?_⟩
    have hbuilt := (hrecurs hfirst hsteps').all hs (hu.trans hw) (by simp [hne])
    obtain ⟨y, s₄, hop, h⟩ := bind_eq_ok.mp hstep
    cases y with
    | none => cases (pure_eq_ok.mp h).1
    | some op =>
      simp only [spanFrom_bind, bind_eq_ok, pure_eq_ok, Option.some.injEq] at h
      obtain ⟨right, s₅, hright, rfl, rfl⟩ := h
      refine hbuilt (hspan ..) ?_
      rw [hchildren]
      exact List.forall_mem_cons.2 ⟨hleft, List.forall_mem_singleton.2
        (hm (((hs.trans hu).trans hv).ok hop) hright)⟩

end

section
variable {D d : Deeper} [d.Regular] (hd : D.Repeats d) {S : State} [d.Finding S (Sited D S)]

section
variable {operand operand' : ParseM (Expr Span)} [Moves operand] [Advances operand]
  (hm : Finds D S operand)
  (hoperand : ∀ {A : Alignment Unit} [A.Ends .whole],
    (∀ sp, A.excused (Fault.nestingTooDeep.report sp)) →
    ∀ pre, A.Follows .inside .whole pre (A.Alike Expr.map) operand operand')
include hm hoperand

theorem binaryLevel_finds {ops : List BinaryOp}
    (hloose : ∀ {e t t'}, t'.current.isPunctuation ";" → binaryLevel ops operand' t = .ok e t' →
      assignment D t = .ok e t') : Finds D S (binaryLevel ops operand) :=
  leftAssociative_finds hm (fun _ _ _ _ => rfl) (fun _ _ _ _ => rfl) fun hfirst hsteps =>
    (operations_recur hoperand (fun {A} => Alignment.alike_binary (A := A)) hfirst hsteps).looser
      hloose

theorem logicalLevel_finds {op : LogicalOp}
    (hloose : ∀ {e t t'}, t'.current.isPunctuation ";" → logicalLevel op operand' t = .ok e t' →
      assignment D t = .ok e t') : Finds D S (logicalLevel op operand) :=
  leftAssociative_finds hm (fun _ _ _ _ => rfl) (fun _ _ _ _ => rfl) fun hfirst hsteps =>
    (operations_recur hoperand (fun {A} => Alignment.alike_logical (A := A)) hfirst hsteps).looser
      hloose

end

include hd

theorem multiplicative_finds : Finds D S (multiplicative d) :=
  binaryLevel_finds (unary_finds hd) (fun hex _ => Alignment.unary_follows (hd hex))
    assignment_of_multiplicative

theorem additive_finds : Finds D S (additive d) :=
  binaryLevel_finds (multiplicative_finds hd)
    (fun hex _ => Alignment.multiplicative_follows (hd hex)) assignment_of_additive

theorem comparison_finds : Finds D S (comparison d) :=
  binaryLevel_finds (additive_finds hd) (fun hex _ => Alignment.additive_follows (hd hex))
    assignment_of_comparison

theorem equality_finds : Finds D S (equality d) :=
  binaryLevel_finds (comparison_finds hd) (fun hex _ => Alignment.comparison_follows (hd hex))
    assignment_of_equality

theorem logicalAnd_finds : Finds D S (logicalAnd d) :=
  logicalLevel_finds (equality_finds hd) (fun hex _ => Alignment.equality_follows (hd hex))
    assignment_of_logicalAnd

theorem logicalOr_finds : Finds D S (logicalOr d) :=
  logicalLevel_finds (logicalAnd_finds hd) (fun hex _ => Alignment.logicalAnd_follows (hd hex))
    assignment_of_logicalOr

/-! ## Conditionals and assignments -/

theorem conditional_finds : Finds D S (conditional d) := by
  intro s e s' hs hconditional
  obtain ⟨u, hu, hde⟩ := conditional_parses Deeper.Regular.sound hconditional
  have hbuilt := (conditional_recurs hd hconditional).all hs hu (hde.ne_nil rfl)
  have h := hconditional
  simp only [conditional, peek_bind, bind_eq_ok] at h
  obtain ⟨test, s₁, htest, b, s₂, hquestion, h⟩ := h
  have hs₁ := hs.ok htest
  have htest := logicalOr_finds hd hs htest
  split at h
  · simp only [spanFrom_bind, bind_eq_ok, pure_eq_ok] at h
    obtain ⟨consequent, s₃, hconsequent, _, s₄, hcolon, alternate, s₅, halternate, rfl, rfl⟩ := h
    have hs₂ := hs₁.ok hquestion
    have hs₄ := (hs₂.ok hconsequent).ok hcolon
    exact hbuilt rfl (List.forall_mem_cons.2 ⟨htest, List.forall_mem_cons.2
      ⟨Gathers.finds hs₂ hconsequent, List.forall_mem_singleton.2
        (Gathers.finds hs₄ halternate)⟩⟩)
  · obtain ⟨rfl, -⟩ := pure_eq_ok.mp h
    exact htest

theorem assignment_finds : Finds D S (assignment d) := by
  intro s e s' hs hassignment
  obtain ⟨u, hu, hde⟩ := assignment_parses Deeper.Regular.sound hassignment
  have hbuilt := (assignment_recurs hd hassignment).all hs hu (hde.ne_nil rfl)
  have h := hassignment
  simp only [assignment, peek_bind, bind_eq_ok] at h
  obtain ⟨left, s₁, hleft, x, s₂, hop, h⟩ := h
  have hs₁ := hs.ok hleft
  have hleft := conditional_finds hd hs hleft
  cases x with
  | some op =>
    simp only [spanFrom_bind, bind_eq_ok, pure_eq_ok] at h
    obtain ⟨p, s₃, htarget, right, s₄, hright, rfl, rfl⟩ := h
    obtain ⟨rfl, rfl⟩ := target_reads htarget
    exact hbuilt rfl (List.forall_mem_cons.2 ⟨.pattern p hleft, List.forall_mem_singleton.2
      (Gathers.finds (hs₁.ok hop) hright)⟩)
  | none =>
    obtain ⟨rfl, -⟩ := pure_eq_ok.mp h
    exact hleft

end

/-! ## Levels -/

/-- Up to the level above `limit`, all that the routines build is sited at `limit`: each of them
calls the operators of the level below its own. -/
theorem level_finding {S : State} {limit : Nat} :
    ∀ n ≤ limit + 1, (level n).Finding S (Sited (level limit) S)
  | 0, _ => ⟨fun _ => Gathers.fail, fun _ => Gathers.fail, fun _ => Gathers.fail,
    fun _ => Gathers.fail⟩
  | n + 1, hn => by
    have hle := Nat.le_of_succ_le_succ hn
    have := @level_finding S limit n (Nat.le_succ_of_le hle)
    have hd := level_repeats hle
    exact ⟨fun K => Finding.statement, fun K => (assignment_finds hd).gathers,
      fun K => (unary_finds hd).gathers, fun K => construction_gathers hd⟩

/-- All expressions in the trees of a run are sited two levels below, where the argument of a
`return` at the top level is read. -/
theorem Runs.sited {S s s' : State} {limit : Nat} {os : List Outcome}
    (h : Runs (level (limit + 2)) s os s') (hs : Reached S s) :
    ∀ st, .ok st ∈ os → (Node.statement st).All (Sited (level limit) S) := by
  have : (level (limit + 1)).Finding S (Sited (level limit) S) :=
    level_finding _ (Nat.le_refl _)
  have hstatement : Gathers S (Node.All (Sited (level limit) S)) [] parts
      (level (limit + 2)).statement := Finding.statement
  exact fun st hst => h.gathers hstatement hs st hst _ (List.mem_singleton_self _)

end Parse

end JsSyntax
