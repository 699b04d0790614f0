import Mathlib.Data.List.TakeDrop
import JsSyntax.Parse.Expression
import JsSyntax.Proofs.Token.Splice
import JsSyntax.Proofs.RoundTrip.Fails

/-! # Numbers that are read and numbers that are refused

The lexical rule for numbers and the numerals that have a value are different languages: a number
token may have an exponent mark without digits behind it, or a point behind its exponent. A numeral
has a value exactly if it is in `DecimalText` (`Decimal.ofNumeral?_isSome_iff`); the texts of
floating-point numbers in general (`FloatText`) have signs and special names as well, but no number
token has. The number tokens that are read are those in which an exponent mark has an exponent
behind it and nothing else (`HasExponents`). The others are refused where they start
(`number_refused_iff`).
-/

set_option autoImplicit false

namespace JsSyntax

/-! ## The languages of numerals -/

/-- Any number of digits. -/
def Digits : Language := fun v => ∀ c ∈ v, c.isDigit

/-- At least one digit. -/
def SomeDigits : Language := fun v => v ≠ [] ∧ Digits v

/-- Digits with at most one point among them or at either end. -/
inductive Mantissa : Language where
  | whole {u : List Char} : SomeDigits u → Mantissa u
  | before {u v : List Char} : SomeDigits u → Digits v → Mantissa (u ++ '.' :: v)
  | behind {u v : List Char} : Digits u → SomeDigits v → Mantissa (u ++ '.' :: v)

/-- A word of the language, with at most one sign in front of it. -/
def Signed (L : Language) : Language := fun v => L v ∨ ∃ c w, v = c :: w ∧ isSign c ∧ L w

/-- What stands behind an exponent mark. -/
def ExponentText : Language := Signed SomeDigits

/-- Nothing, or an exponent mark with an exponent. -/
def OptionalExponent : Language := fun v =>
  v = [] ∨ ∃ c w, v = c :: w ∧ isExponentMark c ∧ ExponentText w

def DecimalText : Language := fun v =>
  ∃ mantissa exponent, v = mantissa ++ exponent ∧ Mantissa mantissa ∧ OptionalExponent exponent

/-- The names of what is no decimal, in any case. -/
def SpecialName : Language := fun v =>
  v.map Char.toLower ∈ ["inf".toList, "infinity".toList, "nan".toList]

/-- The texts of double-precision numbers in general. -/
def FloatText : Language := Signed fun v => SpecialName v ∨ DecimalText v

/-- There is no exponent mark, or an exponent stands behind it and nothing else. -/
def HasExponents (v : List Char) : Prop :=
  (∀ c ∈ v, ¬ isExponentMark c) ∨ ∃ u c w, v = u ++ c :: w ∧ isExponentMark c ∧ ExponentText w

/-! ## Characters of numerals -/

section
variable {c : Char}

theorem eq_of_isExponentMark (h : isExponentMark c) : c = 'e' ∨ c = 'E' := by
  simpa [isExponentMark] using h

theorem eq_of_isSign (h : isSign c) : c = '+' ∨ c = '-' := by
  simpa [isSign] using h

theorem not_isDigit_of_isExponentMark (h : isExponentMark c) : ¬ c.isDigit := by
  rcases eq_of_isExponentMark h with rfl | rfl <;> decide

theorem ne_point_of_isExponentMark (h : isExponentMark c) : c ≠ '.' := by
  rcases eq_of_isExponentMark h with rfl | rfl <;> decide

theorem not_isDigit_of_isSign (h : isSign c) : ¬ c.isDigit := by
  rcases eq_of_isSign h with rfl | rfl <;> decide

end

theorem toLower_of_isDigit {c : Char} (h : c.isDigit) : c.toLower = c := by
  have hdigit := toNat_of_isDigit h
  unfold Char.toLower
  refine dif_neg fun hupper => ?_
  have hletter : 65 ≤ c.toNat := UInt32.le_iff_toNat_le.1 hupper.1
  omega

theorem Mantissa.digit_or_point {u : List Char} (h : Mantissa u) : ∀ c ∈ u, c.isDigit ∨ c = '.' := by
  intro c hc
  cases h with
  | whole hu => exact .inl (hu.2 c hc)
  | before hu hv =>
    rcases List.mem_append.1 hc with hc | hc
    · exact .inl (hu.2 c hc)
    · exact (List.mem_cons.1 hc).symm.imp_left (hv c)
  | behind hu hv =>
    rcases List.mem_append.1 hc with hc | hc
    · exact .inl (hu c hc)
    · exact (List.mem_cons.1 hc).symm.imp_left (hv.2 c)

theorem Mantissa.no_mark {u : List Char} (h : Mantissa u) : ∀ c ∈ u, ¬ isExponentMark c := by
  intro c hc hmark
  rcases h.digit_or_point c hc with hdigit | hpoint
  · exact not_isDigit_of_isExponentMark hmark hdigit
  · exact ne_point_of_isExponentMark hmark hpoint

theorem OptionalExponent.head {v : List Char} (h : OptionalExponent v) :
    ∀ c ∈ v.head?, isExponentMark c := by
  rcases h with rfl | ⟨c, w, rfl, hc, -⟩
  · simp
  · simpa using hc

theorem signed_of_head {L : Language} {v : List Char} (h : ∀ c ∈ v.head?, ¬ isSign c) :
    Signed L v ↔ L v := by
  refine ⟨?_, .inl⟩
  rintro (hv | ⟨c, w, rfl, hc, -⟩)
  · exact hv
  · exact absurd hc (h c rfl)

theorem signed_cons_of_sign {L : Language} {c : Char} {v : List Char} (hc : isSign c)
    (hL : ¬ L (c :: v)) : Signed L (c :: v) ↔ L v := by
  refine ⟨?_, fun hv => .inr ⟨c, v, rfl, hc, hv⟩⟩
  rintro (hv | ⟨_, w, heq, -, hw⟩)
  · exact absurd hv hL
  · exact (List.cons.inj heq).2 ▸ hw

theorem not_someDigits_of_sign {c : Char} {v : List Char} (hc : isSign c) :
    ¬ SomeDigits (c :: v) :=
  fun h => not_isDigit_of_isSign hc (h.2 c List.mem_cons_self)

/-! ## Numerals with a value -/

namespace Decimal

theorem span_digits {u v : List Char} (hu : Digits u) (hv : ∀ c ∈ v.head?, ¬ c.isDigit) :
    (u ++ v).span Char.isDigit = (u, v) := by
  rw [List.span_eq_takeWhile_dropWhile, List.takeWhile_append_of_pos hu,
    List.dropWhile_append_of_pos hu]
  cases v with
  | nil => simp
  | cons c v => simp [hv c rfl]

theorem exists_span (v : List Char) : ∃ u w, v = u ++ w ∧ Digits u ∧ (∀ c ∈ w.head?, ¬ c.isDigit) ∧
    v.span Char.isDigit = (u, w) := by
  refine ⟨v.takeWhile Char.isDigit, v.dropWhile Char.isDigit, ?_, ?_, ?_, ?_⟩
  · exact List.takeWhile_append_dropWhile.symm
  · exact List.all_eq_true.1 List.all_takeWhile
  · intro c hc
    have hhead := List.head?_dropWhile_not Char.isDigit v
    rw [Option.mem_def.1 hc] at hhead
    simpa using hhead
  · exact List.span_eq_takeWhile_dropWhile _ v

theorem digits?_isSome_iff (v : List Char) : (digits? v).isSome ↔ SomeDigits v := by
  unfold digits? SomeDigits Digits
  cases v <;> simp

theorem signedDigits?_isSome_iff (v : List Char) : (signedDigits? v).isSome ↔ ExponentText v := by
  unfold signedDigits? ExponentText
  split
  · next v =>
    rw [Option.isSome_map, digits?_isSome_iff]
    exact (signed_cons_of_sign rfl (not_someDigits_of_sign rfl)).symm
  · next v =>
    rw [Option.isSome_map, digits?_isSome_iff]
    exact (signed_cons_of_sign rfl (not_someDigits_of_sign rfl)).symm
  · next hplus hminus =>
    rw [Option.isSome_map, digits?_isSome_iff]
    refine (signed_of_head fun c hc hsign => ?_).symm
    obtain ⟨w, rfl⟩ := List.head?_eq_some_iff.1 hc
    rcases eq_of_isSign hsign with rfl | rfl
    · exact hplus w rfl
    · exact hminus w rfl

theorem exponent?_isSome_iff (v : List Char) : (exponent? v).isSome ↔ OptionalExponent v := by
  unfold OptionalExponent
  cases v with
  | nil => simp [exponent?]
  | cons c v =>
    rw [exponent?]
    split
    · next hc => simp [signedDigits?_isSome_iff, hc]
    · next hc => simp [hc]

/-- What `ofNumeral?` reads part by part. -/
theorem ofNumeral?_isSome_of_parts {whole part v w x : List Char}
    (hspan : v.span Char.isDigit = (whole, w)) (hfraction : fraction w = (part, x)) :
    (ofNumeral? v).isSome ↔ (whole ≠ [] ∨ part ≠ []) ∧ OptionalExponent x := by
  rw [← exponent?_isSome_iff]
  simp only [ofNumeral?, hspan, hfraction]
  cases whole <;> cases part <;> simp

theorem ofNumeral?_isSome_iff (v : List Char) : (ofNumeral? v).isSome ↔ DecimalText v := by
  have hnot : ∀ {x : List Char}, OptionalExponent x → ∀ c ∈ x.head?, ¬ c.isDigit :=
    fun hx c hc => not_isDigit_of_isExponentMark (hx.head c hc)
  constructor
  · intro h
    obtain ⟨whole, w, rfl, hwhole, -, hspan⟩ := exists_span v
    by_cases hpoint : ∃ x, w = '.' :: x
    · obtain ⟨x, rfl⟩ := hpoint
      obtain ⟨part, x, rfl, hpart, -, hfraction⟩ := exists_span x
      obtain ⟨hsome, hx⟩ := (ofNumeral?_isSome_of_parts hspan hfraction).1 h
      refine ⟨whole ++ '.' :: part, x, by simp, ?_, hx⟩
      rcases hsome with hne | hne
      · exact .before ⟨hne, hwhole⟩ hpart
      · exact .behind hwhole ⟨hne, hpart⟩
    · have hfraction : fraction w = ([], w) := by
        unfold fraction
        split
        · next x => exact absurd ⟨x, rfl⟩ hpoint
        · rfl
      obtain ⟨hsome, hw⟩ := (ofNumeral?_isSome_of_parts hspan hfraction).1 h
      exact ⟨whole, w, rfl, .whole ⟨by simpa using hsome, hwhole⟩, hw⟩
  · rintro ⟨mantissa, x, rfl, hmantissa, hx⟩
    -- The digits in front of the point are followed by the point, those behind it by the exponent.
    have hpoint : ∀ {u w : List Char}, Digits u → Digits w → u ≠ [] ∨ w ≠ [] →
        (ofNumeral? (u ++ '.' :: w ++ x)).isSome := by
      intro u w hu hw hne
      have hfraction : fraction ('.' :: (w ++ x)) = (w, x) := span_digits hw (hnot hx)
      rw [List.append_assoc, List.cons_append]
      refine (ofNumeral?_isSome_of_parts (span_digits hu ?_) hfraction).2 ⟨hne, hx⟩
      rintro _ ⟨⟩
      decide
    cases hmantissa with
    | whole hu =>
      have hfraction : fraction x = ([], x) := by
        unfold fraction
        split
        · exact absurd rfl (ne_point_of_isExponentMark (hx.head '.' rfl))
        · rfl
      exact (ofNumeral?_isSome_of_parts (span_digits hu.2 (hnot hx)) hfraction).2 ⟨.inl hu.1, hx⟩
    | before hu hw => exact hpoint hu.2 hw (.inl hu.1)
    | behind hu hw => exact hpoint hu hw.2 (.inr hw.1)

end Decimal

theorem Double.ofNumeral?_isSome_iff (text : String) :
    (Double.ofNumeral? text).isSome ↔ DecimalText text.toList := by
  rw [Double.ofNumeral?, Option.isSome_map, Decimal.ofNumeral?_isSome_iff]

/-! ## Number tokens -/

namespace Numeral

variable {point exponent sign : Bool} {u v : List Char}

theorem of_append (h : Numeral point exponent sign (u ++ v)) : Numeral point exponent sign u where
  chars c hc := h.chars c (List.mem_append_left v hc)
  points := Nat.le_trans (by simp) h.points
  marks := Nat.le_trans (by simp) h.marks
  head c hc hsign := h.head c (by simp [Option.mem_def.1 hc]) hsign
  signs := (List.isChain_append.1 h.signs).1

/-- The one exponent mark is the first. -/
theorem no_mark_before {c : Char} (h : Numeral point exponent sign (u ++ c :: v))
    (hc : isExponentMark c) : ∀ d ∈ u, ¬ isExponentMark d := by
  have hmarks := h.marks
  rw [List.countP_append, List.countP_cons_of_pos hc] at hmarks
  have hle := exponent.toNat_le
  exact List.countP_eq_zero.1 (by omega)

/-- Without an exponent mark there are only digits and at most one point. -/
theorem digits_or_point (h : Numeral point exponent false v) (hv : ∀ c ∈ v, ¬ isExponentMark c) :
    Digits v ∨ point ∧ ∃ u w, v = u ++ '.' :: w ∧ Digits u ∧ Digits w := by
  induction v generalizing point with
  | nil => exact .inl nofun
  | cons c v ih =>
    obtain ⟨hc, hrest⟩ := List.forall_mem_cons.1 hv
    rcases h.chars c List.mem_cons_self with hdigit | rfl | hmark | hsign
    · rcases ih ((cons_digit hdigit).1 h) hrest with hall | ⟨hpoint, u, w, rfl, hu, hw⟩
      · exact .inl (List.forall_mem_cons.2 ⟨hdigit, hall⟩)
      · exact .inr ⟨hpoint, c :: u, w, rfl, List.forall_mem_cons.2 ⟨hdigit, hu⟩, hw⟩
    · obtain ⟨hpoint, h⟩ := cons_point.1 h
      rcases ih h hrest with hall | ⟨hfalse, -⟩
      · exact .inr ⟨hpoint, [], v, rfl, nofun, hall⟩
      · cases hfalse
    · exact absurd hmark hc
    · exact absurd ((cons_sign hsign).1 h).1 nofun

theorem mantissa (h : Numeral point exponent false v) (hstarts : Begins NumberStart v)
    (hv : ∀ c ∈ v, ¬ isExponentMark c) : Mantissa v := by
  obtain ⟨_, ⟨d, hd, rfl | rfl⟩, x, rfl⟩ := hstarts
  · rcases h.digits_or_point hv with hall | ⟨-, u, w, heq, hu, hw⟩
    · exact .whole ⟨nofun, hall⟩
    · rw [heq]
      refine .before ⟨?_, hu⟩ hw
      rintro rfl
      obtain ⟨rfl, -⟩ := List.cons.inj heq
      exact absurd hd (by decide)
  · rcases h.digits_or_point hv with hall | ⟨-, u, w, heq, hu, hw⟩
    · exact absurd (hall '.' List.mem_cons_self) (by decide)
    · rw [heq]
      cases u with
      | nil =>
        obtain ⟨-, rfl⟩ := List.cons.inj heq
        exact .behind hu ⟨nofun, hw⟩
      | cons c u =>
        obtain ⟨rfl, -⟩ := List.cons.inj heq
        exact absurd (hu '.' List.mem_cons_self) (by decide)

end Numeral

/-- The texts of number tokens. -/
structure NumberLexeme (v : List Char) : Prop where
  starts : Begins NumberStart v
  numeral : NumberText v

namespace NumberLexeme

variable {v : List Char}

theorem head (h : NumberLexeme v) : ∀ c ∈ v.head?, c.isDigit ∨ c = '.' := by
  obtain ⟨_, ⟨d, hd, rfl | rfl⟩, w, rfl⟩ := h.starts
  · rintro _ ⟨⟩
    exact .inl hd
  · rintro _ ⟨⟩
    exact .inr rfl

/-- A number starts in front of its exponent mark. -/
theorem starts_before_mark {u w : List Char} {c : Char} (h : NumberLexeme (u ++ c :: w))
    (hc : isExponentMark c) : Begins NumberStart u := by
  have havoids : Avoids NumberStart c := by
    refine .of_not_mem ?_
    rintro _ ⟨d, hd, rfl | rfl⟩ hmem
    · obtain rfl := List.mem_singleton.1 hmem
      exact not_isDigit_of_isExponentMark hc hd
    · rcases List.mem_cons.1 hmem with rfl | hmem
      · exact ne_point_of_isExponentMark hc rfl
      · obtain rfl := List.mem_singleton.1 hmem
        exact not_isDigit_of_isExponentMark hc hd
  have hne : u ≠ [] := by
    rintro rfl
    rcases h.head c rfl with hdigit | hpoint
    · exact not_isDigit_of_isExponentMark hc hdigit
    · exact ne_point_of_isExponentMark hc hpoint
  obtain ⟨x, hx, hp⟩ := h.starts
  exact ⟨x, hx, havoids.isPrefix hne hx hp⟩

/-- Of the texts of number tokens, those have a value in which an exponent mark has an exponent. -/
theorem decimalText_iff (h : NumberLexeme v) : DecimalText v ↔ HasExponents v := by
  constructor
  · rintro ⟨u, x, rfl, hu, rfl | ⟨c, w, rfl, hc, hw⟩⟩
    · rw [List.append_nil]
      exact .inl hu.no_mark
    · exact .inr ⟨u, c, w, rfl, hc, hw⟩
  · rintro (hnone | ⟨u, c, w, rfl, hc, hw⟩)
    · exact ⟨v, [], (List.append_nil v).symm, h.numeral.mantissa h.starts hnone, .inl rfl⟩
    · refine ⟨u, c :: w, rfl, ?_, .inr ⟨c, w, rfl, hc, hw⟩⟩
      have hnumeral : NumberText (u ++ c :: w) := h.numeral
      exact hnumeral.of_append.mantissa (h.starts_before_mark hc) (hnumeral.no_mark_before hc)

theorem not_specialName (h : NumberLexeme v) : ¬ SpecialName v := by
  intro hname
  -- Lower case leaves digits and the point alone, and each special name starts with a letter.
  have hlower : ∀ c ∈ (v.map Char.toLower).head?, c.isDigit ∨ c = '.' := by
    intro c hc
    rw [List.head?_map] at hc
    obtain ⟨d, hd, rfl⟩ := Option.map_eq_some_iff.1 hc
    rcases h.head d hd with hdigit | rfl
    · exact .inl ((toLower_of_isDigit hdigit).symm ▸ hdigit)
    · exact .inr rfl
  have hletter : ∀ name ∈ ["inf".toList, "infinity".toList, "nan".toList],
      name.head? = some 'i' ∨ name.head? = some 'n' := by decide
  rcases hletter _ hname with hi | hn
  · exact absurd (hlower _ hi) (by decide)
  · exact absurd (hlower _ hn) (by decide)

/-- A number token has no sign in front, and is no special name. -/
theorem floatText_iff (h : NumberLexeme v) : FloatText v ↔ DecimalText v := by
  unfold FloatText
  rw [signed_of_head fun c hc hsign => ?_]
  · exact or_iff_right h.not_specialName
  · rcases h.head c hc with hdigit | rfl
    · exact not_isDigit_of_isSign hsign hdigit
    · exact absurd hsign (by decide)

end NumberLexeme

theorem wordKindOf_ne_number (v : List Char) : wordKindOf v ≠ .number := by
  unfold wordKindOf
  split
  · decide
  split
  · decide
  split <;> decide

theorem markKindOf_ne_number (v : List Char) : markKindOf v ≠ .number := by
  unfold markKindOf
  split <;> decide

theorem LexemeAt.numberLexeme {lexeme rest : List Char} (h : LexemeAt .number lexeme rest) :
    NumberLexeme lexeme := by
  obtain ⟨rule, hrule, ha, ht, hk⟩ := h.first.exists_rule
  simp only [lexicalRules, List.mem_cons, List.not_mem_nil, or_false] at hrule
  rcases hrule with rfl | rfl | rfl | rfl | rfl | rfl | rfl | rfl | rfl
  · cases hk
  · cases hk
  · exact ⟨numberRule.covers ha ht, ht.mem⟩
  · cases hk
  · cases hk
  · cases hk
  · exact absurd hk.symm (wordKindOf_ne_number lexeme)
  · exact absurd hk.symm (markKindOf_ne_number lexeme)
  · cases hk

theorem numberLexeme_of_mem_tokenize {source : String} {t : Token} (ht : t ∈ tokenize source)
    (hkind : t.kind = .number) : NumberLexeme t.value.toList := by
  obtain ⟨before, lexeme, rest, kind, -, rfl, hl⟩ :=
    (lexes_tokenize source).mem_split t ht (by rw [hkind]; decide)
  obtain rfl : kind = .number := hkind
  rw [Token.of, String.toList_ofList]
  exact hl.numberLexeme

/-! ## The parser in front of a number token -/

namespace Parse

section
variable {s : State} {t : Token} (d : Deeper) (hs : s.current = t) (hkind : t.kind = .number)
include hs hkind

theorem primary_of_number :
    primary d s = (numberLiteral >>= fun l => pure (Expr.literal l)) s := by
  rw [primary, peek_bind, hs, hkind]

theorem propertyKey_of_number :
    propertyKey d s = (numberLiteral >>= fun l => pure (PropertyKey.literal l, false)) s := by
  have hmark : t.isPunctuation "[" = false := by simp [Token.isPunctuation, Token.is, hkind]
  have hname : isName t = false := by simp [isName, hkind]
  simp [propertyKey, hs, hmark, hname, hkind]

omit d in
theorem numberLiteral_of_some {value : Double} (h : Double.ofNumeral? t.value = some value) :
    numberLiteral s = .ok ⟨.number value, t.value, t.span⟩ (s.behind t s.rest.tail) := by
  obtain ⟨rest, hrest⟩ := State.rest_eq_cons_of_kind (s := s) (by rw [hs, hkind]; decide)
  rw [hs] at hrest
  rw [numberLiteral, peek_bind, hs, h]
  show (advance >>= fun t => pure _) s = _
  rw [bind_of_ok (advance_of_rest hrest), hrest]
  rfl

omit d hkind in
theorem numberLiteral_of_none (h : Double.ofNumeral? t.value = none) :
    numberLiteral s = .error (Fault.invalidNumber.report t.span.start) s := by
  rw [numberLiteral, peek_bind, hs, h]
  rw [← hs]
  rfl

end

end Parse

open Parse in
/-- **Which number tokens are refused.** A number token starts with neither a sign nor a letter. It
is read exactly if it is the text of a double-precision number, and that is so exactly if there is
no exponent mark in it or an exponent behind the mark and nothing else. Where an operand or a key
starts with a token that is not read, parsing fails at the start of the token, in front of it. -/
theorem number_refused_iff (source : String) (t : Token) (ht : t ∈ tokenize source)
    (hkind : t.kind = .number) :
    (∀ c ∈ t.value.toList.head?, ¬ isSign c ∧ ¬ c.isAlpha) ∧
    ((Double.ofNumeral? t.value).isSome ↔ FloatText t.value.toList) ∧
    (FloatText t.value.toList ↔ HasExponents t.value.toList) ∧
    ∀ (d : Deeper) (s : State), s.current = t →
      (HasExponents t.value.toList → ∃ value,
        primary d s = .ok (.literal ⟨.number value, t.value, t.span⟩) (s.behind t s.rest.tail) ∧
        propertyKey d s =
          .ok (.literal ⟨.number value, t.value, t.span⟩, false) (s.behind t s.rest.tail)) ∧
      (¬ HasExponents t.value.toList →
        primary d s = .error ⟨"Invalid number literal", ⟨t.line, t.column⟩⟩ s ∧
        propertyKey d s = .error ⟨"Invalid number literal", ⟨t.line, t.column⟩⟩ s) := by
  have hlexeme := numberLexeme_of_mem_tokenize ht hkind
  have hfloat : FloatText t.value.toList ↔ HasExponents t.value.toList :=
    hlexeme.floatText_iff.trans hlexeme.decimalText_iff
  have hvalue : (Double.ofNumeral? t.value).isSome ↔ FloatText t.value.toList :=
    (Double.ofNumeral?_isSome_iff t.value).trans hlexeme.floatText_iff.symm
  refine ⟨fun c hc => ?_, hvalue, hfloat, fun d s hs => ⟨fun h => ?_, fun h => ?_⟩⟩
  · rcases hlexeme.head c hc with hdigit | rfl
    · refine ⟨fun hsign => not_isDigit_of_isSign hsign hdigit, fun halpha => ?_⟩
      have := toNat_of_isDigit hdigit
      have := toNat_of_isAlpha halpha
      omega
    · decide
  · obtain ⟨value, hread⟩ := Option.isSome_iff_exists.1 (hvalue.2 (hfloat.2 h))
    have hliteral := numberLiteral_of_some hs hkind hread
    refine ⟨value, ?_, ?_⟩
    · rw [primary_of_number d hs hkind, bind_of_ok hliteral]
      rfl
    · rw [propertyKey_of_number d hs hkind, bind_of_ok hliteral]
      rfl
  · have hread : Double.ofNumeral? t.value = none :=
      Option.not_isSome_iff_eq_none.1 fun hsome => h (hfloat.1 (hvalue.1 hsome))
    have hliteral := numberLiteral_of_none hs hread
    refine ⟨?_, ?_⟩
    · rw [primary_of_number d hs hkind, bind_of_error hliteral]
      rfl
    · rw [propertyKey_of_number d hs hkind, bind_of_error hliteral]
      rfl

open Parse in
/-- The token `1e`, at the start of a source, is one of those refused. -/
theorem number_refused_exponent_without_digits :
    ∃ t ∈ tokenize "1e", t.kind = .number ∧ ¬ HasExponents t.value.toList ∧
      primary .exhausted ⟨none, [t], ⟨2, 1, 3⟩, []⟩ =
        .error ⟨"Invalid number literal", ⟨1, 1⟩⟩ ⟨none, [t], ⟨2, 1, 3⟩, []⟩ := by
  obtain ⟨t, ht, hkind, hvalue, hline, hcolumn⟩ : ∃ t ∈ tokenize "1e",
      t.kind = .number ∧ t.value = "1e" ∧ t.line = 1 ∧ t.column = 1 := by
    decide +kernel
  obtain ⟨-, hread, hfloat, hrefused⟩ := number_refused_iff "1e" t ht hkind
  have hnot : ¬ HasExponents t.value.toList := fun h =>
    absurd (hread.2 (hfloat.2 h)) (by rw [hvalue]; decide +kernel)
  refine ⟨t, ht, hkind, hnot, ?_⟩
  have := ((hrefused .exhausted ⟨none, [t], ⟨2, 1, 3⟩, []⟩ rfl).2 hnot).1
  rwa [hline, hcolumn] at this

end JsSyntax
