import JsSyntax.Parse.Member
import JsSyntax.Proofs.Sound.Function

/-! # Soundness of members

Keys, properties of objects and methods of classes. The flags of a member are those of the words
and marks that have been read in front of its key.
-/

set_option autoImplicit false

namespace JsSyntax

open Grammar

namespace Parse

/-! ## Literals -/

theorem stringLiteral_reads {s s' : State} {l : Literal Span} (hk : s.current.kind = .string)
    (h : stringLiteral s = .ok l s') :
    s.Reads [s.current] s' ∧
      l = ⟨.string (literalBody s.current.value), s.current.value, s.current.span⟩ := by
  simp only [stringLiteral, bind_eq_ok, pure_eq_ok] at h
  obtain ⟨t, _, hadv, rfl, rfl⟩ := h
  obtain ⟨rfl, hr⟩ := advance_reads_of_kind hadv hk (by decide)
  exact ⟨hr, rfl⟩

theorem numberLiteral_reads {s s' : State} {l : Literal Span} (hk : s.current.kind = .number)
    (h : numberLiteral s = .ok l s') :
    s.Reads [s.current] s' ∧ ∃ value, Double.ofNumeral? s.current.value = some value ∧
      l = ⟨.number value, s.current.value, s.current.span⟩ := by
  simp only [numberLiteral, peek_bind] at h
  cases hv : Double.ofNumeral? s.current.value with
  | none =>
    rw [hv] at h
    exact absurd h fail_ne_ok
  | some value =>
    simp only [hv, bind_eq_ok, pure_eq_ok] at h
    obtain ⟨t, _, hadv, rfl, rfl⟩ := h
    obtain ⟨rfl, hr⟩ := advance_reads_of_kind hadv hk (by decide)
    exact ⟨hr, value, rfl, rfl⟩

/-! ## Modifiers -/

/-- The word of an accessor, if one has been read. -/
def AccessorWord (accessor : Option Bool) (u : List Token) : Prop :=
  match accessor with
  | none => u = []
  | some getter => ∃ t, u = [t] ∧ Reading.spanned.IsWord t (if getter then "get" else "set")

theorem acceptAccessor_reads {s s' : State} {accessor : Option Bool}
    (h : acceptAccessor s = .ok accessor s') : ∃ u, s.Reads u s' ∧ AccessorWord accessor u := by
  simp only [acceptAccessor, bind_eq_ok] at h
  obtain ⟨b, s₁, hget, h⟩ := h
  obtain ⟨u, hu, hflag⟩ := acceptModifier_flag hget
  cases hflag with
  | on ht =>
    obtain ⟨rfl, rfl⟩ := pure_eq_ok.mp h
    exact ⟨_, hu, _, rfl, ht⟩
  | off =>
    simp only [Bool.false_eq_true, if_false, bind_eq_ok] at h
    obtain ⟨b, s₂, hset, h⟩ := h
    obtain ⟨v, hv, hflag⟩ := acceptModifier_flag hset
    have hr := hu.trans hv
    cases hflag with
    | on ht =>
      obtain ⟨rfl, rfl⟩ := pure_eq_ok.mp h
      exact ⟨_, hr, _, rfl, ht⟩
    | off =>
      obtain ⟨rfl, rfl⟩ := pure_eq_ok.mp h
      exact ⟨_, hr, rfl⟩

theorem isReference_iff {t : Token} : isReference t = true ↔ Reading.spanned.IsReference t := by
  simp [isReference, Reading.IsReference, Reading.IsIdentifier, Reading.spanned]

/-! ## Keys -/

section
variable {d : Deeper} (hd : d.Sound)
include hd

theorem propertyKey_reads {s s' : State} {key : PropertyKey Span} {computed : Bool}
    (h : propertyKey d s = .ok (key, computed) s') :
    ∃ u, s.Reads u s' ∧ Derives Reading.spanned .key u key ∧ computed = key.isComputed ∧
      (∀ id, key = .ident id → u = [s.current] ∧ id = Reading.spanned.ident s.current s.current.span) := by
  simp only [propertyKey, peek_bind] at h
  split at h
  · rename_i hb
    have hb := Token.is_iff.1 hb
    simp only [bind_eq_ok, discard_eq_ok, pure_eq_ok, Prod.mk.injEq] at h
    obtain ⟨_, s₁, ⟨_, hadv⟩, e, s₂, he, _, s₃, hstop, ⟨rfl, rfl⟩, rfl⟩ := h
    have hr := (advance_reads_of_kind hadv hb.1 (by decide)).2
    obtain ⟨u, hu, hd⟩ := hd.assignment he
    obtain ⟨t, ht, hm⟩ := require_reads hstop
    exact ⟨_, (hr.trans hu).trans ht, .computedKey hb hd hm, rfl, by rintro _ ⟨⟩⟩
  split at h
  · rename_i hn
    simp only [bind_eq_ok, discard_eq_ok, pure_eq_ok, Prod.mk.injEq] at h
    obtain ⟨_, s₁, ⟨_, hadv⟩, ⟨rfl, rfl⟩, rfl⟩ := h
    have hr := (advance_reads hadv (kind_ne_eof_of_isName hn)).2
    refine ⟨_, hr, .nameKey (isName_iff.1 hn) (covers_single _), rfl, ?_⟩
    rintro _ ⟨⟩
    exact ⟨rfl, rfl⟩
  split at h
  · rename_i hk
    simp only [bind_eq_ok, pure_eq_ok, Prod.mk.injEq] at h
    obtain ⟨l, s₁, hl, ⟨rfl, rfl⟩, rfl⟩ := h
    obtain ⟨hr, rfl⟩ := stringLiteral_reads hk hl
    exact ⟨_, hr, .stringKey hk (covers_single _), rfl, by rintro _ ⟨⟩⟩
  split at h
  · rename_i hk
    simp only [bind_eq_ok, pure_eq_ok, Prod.mk.injEq] at h
    obtain ⟨l, s₁, hl, ⟨rfl, rfl⟩, rfl⟩ := h
    obtain ⟨hr, value, hv, rfl⟩ := numberLiteral_reads hk hl
    exact ⟨_, hr, .numberKey hk hv (covers_single _), rfl, by rintro _ ⟨⟩⟩
  · exact absurd h fail_ne_ok

/-! ## Properties -/

theorem property_parses : Parses .property (property d) := by
  intro s p s' h
  simp only [property, peek_bind, isMarkNext_bind, ite_bind, bind_eq_ok] at h
  obtain ⟨accessor, s₁, haccessor, async, s₂, hasync, generator, s₃, hgenerator, ⟨key, computed⟩,
    s₄, hkey, h⟩ := h
  obtain ⟨u, hu, hword⟩ := acceptAccessor_reads haccessor
  obtain ⟨x, hx, hk, rfl, hid⟩ := propertyKey_reads hd hkey
  cases accessor with
  | some getter =>
    obtain ⟨t, rfl, hword⟩ := hword
    have hasync : async = false ∧ s₂ = s₁ := by
      cases getter <;> simpa [pure_eq_ok, eq_comm] using hasync
    have hgenerator : generator = false ∧ s₃ = s₂ := by
      cases getter <;> simpa [pure_eq_ok, eq_comm] using hgenerator
    obtain ⟨rfl, rfl⟩ := hasync
    obtain ⟨rfl, rfl⟩ := hgenerator
    have h : ∃ f, methodFunction d false false s₄ = .ok f s' ∧
        p = ⟨key, .function f, if getter then .get else .set, key.isComputed, false, false,
          s'.spanFrom s.current.span⟩ := by
      cases getter
      all_goals
        simp only [ne_eq, reduceCtorEq, not_false_eq_true, decide_true, Bool.true_or, if_true,
          decide_false, spanFrom_bind, bind_eq_ok, pure_eq_ok] at h
        obtain ⟨f, s₅, hf, rfl, rfl⟩ := h
        exact ⟨f, hf, rfl⟩
    obtain ⟨f, hf, rfl⟩ := h
    obtain ⟨y, hy, hm⟩ := methodFunction_parses hd _ _ hf
    have hr := (hu.trans hx).trans hy
    exact ⟨_, hr, .accessorProperty hword hk hm (hr.covers (by simp))⟩
  | none =>
    simp only [if_true] at hasync hgenerator
    obtain ⟨v, hv, hflag⟩ := acceptModifier_flag hasync
    obtain ⟨w, hw, hflag'⟩ := (acceptOperator_accepted hgenerator).flag
    have hr := (hu.trans hv).trans hw
    rw [show u = [] from hword, List.nil_append] at hr
    simp only [ne_eq, not_true_eq_false, decide_false, Bool.false_or] at h
    split at h
    · simp only [spanFrom_bind, bind_eq_ok, pure_eq_ok] at h
      obtain ⟨f, s₅, hf, rfl, rfl⟩ := h
      obtain ⟨y, hy, hm⟩ := methodFunction_parses hd _ _ hf
      have hr := (hr.trans hx).trans hy
      exact ⟨_, hr, .methodProperty hflag hflag' hk hm (hr.covers (by simp [hk.ne_nil rfl]))⟩
    · rename_i hno
      simp only [Bool.or_eq_true, not_or, Bool.not_eq_true] at hno
      obtain ⟨⟨rfl, rfl⟩, -⟩ := hno
      rw [hflag.eq_nil, hflag'.eq_nil, List.append_nil] at hr
      have hr := hr.trans hx
      simp only [bind_eq_ok] at h
      obtain ⟨b, s₅, hcolon, h⟩ := h
      cases acceptMark_accepted hcolon with
      | yes hm ht =>
        simp only [if_true, spanFrom_bind, bind_eq_ok, pure_eq_ok] at h
        obtain ⟨e, s₆, he, rfl, rfl⟩ := h
        obtain ⟨y, hy, hde⟩ := hd.assignment he
        have hr := (hr.trans ht).trans hy
        exact ⟨_, hr, .valueProperty hk hm hde (hr.covers (by simp))⟩
      | no =>
        simp only [Bool.false_eq_true, if_false] at h
        cases key with
        | ident id =>
          obtain ⟨rfl, rfl⟩ := hid id rfl
          dsimp only at h
          split at h
          · rename_i hf
            obtain ⟨rfl, rfl⟩ := pure_eq_ok.mp h
            exact ⟨_, hr, .shorthandProperty (isReference_iff.1 hf) (covers_single _)
              (hr.covers (by simp))⟩
          · exact absurd h fail_ne_ok
        | literal => exact absurd h fail_ne_ok
        | computed => exact absurd h fail_ne_ok

/-! ## Methods -/

theorem methodDefinition_parses : Parses .member (methodDefinition d) := by
  intro s m s' h
  simp only [methodDefinition, peek_bind, spanFrom_bind, ite_bind, bind_eq_ok, pure_eq_ok] at h
  obtain ⟨static, s₁, hstatic, async, s₂, hasync, generator, s₃, hgenerator, accessor, s₄,
    haccessor, ⟨key, computed⟩, s₅, hkey, f, s₆, hf, rfl, rfl⟩ := h
  obtain ⟨u, hu, hflag⟩ := acceptModifier_flag hstatic
  obtain ⟨v, hv, hflag'⟩ := acceptModifier_flag hasync
  obtain ⟨w, hw, hflag''⟩ := (acceptOperator_accepted hgenerator).flag
  obtain ⟨x, hx, hk, rfl, -⟩ := propertyKey_reads hd hkey
  obtain ⟨y, hy, hm⟩ := methodFunction_parses hd _ _ hf
  have hr := (hu.trans hv).trans hw
  have hword : ∃ z, s₃.Reads z s₄ ∧ AccessorWord accessor z ∧
      (accessor ≠ none → async = false ∧ generator = false) := by
    split at haccessor
    · obtain ⟨rfl, rfl⟩ := pure_eq_ok.mp haccessor
      exact ⟨[], .refl _, rfl, fun h => absurd rfl h⟩
    · rename_i hno
      obtain ⟨z, hz, hword⟩ := acceptAccessor_reads haccessor
      exact ⟨z, hz, hword, fun _ => by simpa using hno⟩
  obtain ⟨z, hz, hword, hno⟩ := hword
  cases accessor with
  | none =>
    rw [show z = [] from hword] at hz
    have hr := ((hr.trans hz).trans hx).trans hy
    rw [List.append_nil] at hr
    exact ⟨_, hr, .methodMember hflag hflag' hflag'' hk hm (hr.covers (by simp [hk.ne_nil rfl]))⟩
  | some getter =>
    obtain ⟨t, rfl, hword⟩ := hword
    obtain ⟨rfl, rfl⟩ := hno (by simp)
    rw [hflag'.eq_nil, hflag''.eq_nil, List.append_nil, List.append_nil] at hr
    have hr := ((hr.trans hz).trans hx).trans hy
    have hkind : methodKind (some getter) static key.isComputed key =
        if getter then .get else .set := by
      cases getter <;> rfl
    rw [hkind]
    exact ⟨_, hr, .accessorMember hflag hword hk hm (hr.covers (by simp))⟩

end

end Parse

end JsSyntax
