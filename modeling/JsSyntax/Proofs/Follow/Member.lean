import JsSyntax.Proofs.Follow.Function

/-! # Members that follow each other -/

set_option autoImplicit false
-- The whole text of a routine goes through the search for an instance.
set_option synthInstance.maxSize 1024

namespace JsSyntax

namespace Parse

namespace Alignment

variable {τ : Type} {A : Alignment τ} {r : Reach} {pre : State → State → Prop}

/-! ## Literals -/

theorem stringLiteral_follows :
    A.Follows .inside .whole A.Ready (A.Alike Literal.map) stringLiteral stringLiteral := by
  refine advance_follows.bind_whole fun ht => .pure ?_
  simp only [Alike, Literal.map, ht.value, ht.span]

theorem numberLiteral_follows :
    A.Follows .inside .whole A.Ready (A.Alike Literal.map) numberLiteral numberLiteral := by
  refine peek_bind fun {kind value sp sp'} _ => ?_
  dsimp only
  cases Double.ofNumeral? value with
  | none => exact fail_follows _
  | some value =>
    refine advance_follows.bind_whole fun ht => .pure ?_
    simp only [Alike, Literal.map, ht.value, ht.span]

/-! ## Modifiers -/

theorem acceptAccessor_chooses : A.Chooses acceptAccessor acceptAccessor := by
  refine (acceptModifier_chooses "get").bind fun _ => .ite (.pure _) ?_
  exact (acceptModifier_chooses "set").bind fun _ => .ite (.pure _) (.pure _)

section
variable {d d' : Deeper} [d.Regular] (hd : A.Deepens d d')
include hd

/-! ## Keys -/

theorem propertyKey_follows :
    A.Follows .inside .inside pre (fun x x' => A.Alike PropertyKey.map x.1 x'.1 ∧ x.2 = x'.2)
      (propertyKey d) (propertyKey d') := by
  refine peek_bind_kind fun {kind value sp sp'} hsp => ?_
  refine .ite .rfl (fun hb => ?_) fun _ => ?_
  · have hk := (Token.is_iff.1 hb).1
    refine (discard_advance_follows.of_pre
      (ready_of_kind_eq hk (by decide))).of_whole.bind fun _ => ?_
    refine hd.assignment.bind fun hkey => ?_
    refine (require_follows _).of_whole.bind fun _ => .pure ⟨?_, rfl⟩
    simp only [Alike] at hkey
    simp [Alike, PropertyKey.map, hkey]
  refine .ite .rfl (fun hn => ?_) fun _ => ?_
  · refine (discard_advance_follows.of_pre
      (ready_of_kind (kind_ne_eof_of_isName hn))).of_whole.bind fun _ => .pure ⟨?_, rfl⟩
    simp [Alike, PropertyKey.map, Ident.map, hsp]
  refine .ite .rfl (fun hk => ?_) fun _ => ?_
  · refine (stringLiteral_follows.of_pre
      (ready_of_kind_eq hk (by decide))).of_whole.bind fun hl => .pure ⟨?_, rfl⟩
    simp only [Alike] at hl
    simp [Alike, PropertyKey.map, hl]
  refine .ite .rfl (fun hk => ?_) fun _ => fail_follows _
  · refine (numberLiteral_follows.of_pre
      (ready_of_kind_eq hk (by decide))).of_whole.bind fun hl => .pure ⟨?_, rfl⟩
    simp only [Alike] at hl
    simp [Alike, PropertyKey.map, hl]

/-! ## Properties -/

theorem property_follows :
    A.Follows .inside .inside pre (A.Alike Property.map) (property d) (property d') := by
  unfold property
  simp only [ite_bind]
  have := Moves.shorthand
  refine peek_bind fun hstart => ?_
  refine acceptAccessor_chooses.bind_all fun accessor => ?_
  refine (Chooses.ite (acceptModifier_chooses _) (.pure _)).bind_all fun async => ?_
  refine (Accepts.ite (acceptOperator_accepts _) (pure_accepts _)).bind_all fun generator => ?_
  refine peek_bind fun _ => ?_
  refine (propertyKey_follows hd).bind fun {x x'} hx => ?_
  obtain ⟨key, computed⟩ := x
  obtain ⟨key', computed'⟩ := x'
  obtain ⟨hkey, rfl⟩ : A.Alike PropertyKey.map key key' ∧ computed = computed' := hx
  refine (isMarkNext_looks _).bind fun _ => .ite .rfl (fun _ => ?_) fun _ => ?_
  · refine (methodFunction_follows hd _ _).bind fun hvalue => ?_
    refine spanFrom_bind hstart fun hspan => .pure ?_
    simp only [Alike] at hkey hvalue
    simp [Alike, Property.map, Expr.map, hkey, hvalue, hspan]
  refine (acceptMark_accepts _).bind_bool ?_ ?_
  · refine hd.assignment.bind fun hvalue => ?_
    refine spanFrom_bind hstart fun hspan => .pure ?_
    simp only [Alike] at hkey hvalue
    simp [Alike, Property.map, hkey, hvalue, hspan]
  simp only [Bool.false_eq_true, if_false]
  cases key with
  | ident id =>
    cases key' with
    | ident id' =>
      refine .ite .rfl (fun _ => ?_) fun _ => fail_follows _
      refine spanFrom_bind hstart fun hspan => .pure ?_
      simp only [Alike, PropertyKey.map, PropertyKey.ident.injEq] at hkey
      simp [Alike, Property.map, PropertyKey.map, Expr.map, hkey, hspan]
    | literal => simp [Alike, PropertyKey.map] at hkey
    | computed => simp [Alike, PropertyKey.map] at hkey
  | literal =>
    cases key' with
    | ident => simp [Alike, PropertyKey.map] at hkey
    | literal => exact fail_follows _
    | computed => exact fail_follows _
  | computed =>
    cases key' with
    | ident => simp [Alike, PropertyKey.map] at hkey
    | literal => exact fail_follows _
    | computed => exact fail_follows _

/-! ## Methods -/

theorem methodDefinition_follows :
    A.Follows .inside .inside pre (A.Alike MethodDefinition.map) (methodDefinition d)
      (methodDefinition d') := by
  unfold methodDefinition
  simp only [ite_bind]
  refine peek_bind fun hstart => ?_
  refine (acceptModifier_chooses _).bind_all fun static => ?_
  refine (acceptModifier_chooses _).bind_all fun async => ?_
  refine (acceptOperator_accepts _).bind_all fun generator => ?_
  refine (Chooses.ite (.pure _) acceptAccessor_chooses).bind_all fun accessor => ?_
  refine (propertyKey_follows hd).bind fun {x x'} hx => ?_
  obtain ⟨key, computed⟩ := x
  obtain ⟨key', computed'⟩ := x'
  obtain ⟨hkey, rfl⟩ : A.Alike PropertyKey.map key key' ∧ computed = computed' := hx
  refine (methodFunction_follows hd _ _).bind fun hvalue => ?_
  refine spanFrom_bind hstart fun hspan => .pure ?_
  simp only [Alike] at hkey hvalue
  have hname : key.name? = key'.name? := by
    rw [← PropertyKey.name?_map A.left, hkey, PropertyKey.name?_map]
  simp [Alike, MethodDefinition.map, methodKind, hkey, hvalue, hspan, hname]

end

end Alignment

end Parse

end JsSyntax
