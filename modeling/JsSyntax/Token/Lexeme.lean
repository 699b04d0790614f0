import JsSyntax.Token.Vocabulary

/-! # Lexemes

Every function here takes the text from the start of a token on and gives the part of it that
the token covers. A scan never fails: strings, templates and block comments that are not closed
run to the end of the text, and a character that starts nothing is a lexeme of its own.

* `Lexeme.scan` : the kind and the text of the token that starts a text.
* `Lexeme.scan_isPrefix`, `Lexeme.scan_ne_nil` : the lexeme is a nonempty initial part of the text.
-/

set_option autoImplicit false

namespace JsSyntax

namespace Lexeme

/-! ## The parts of lexemes -/

/-- The text up to the end of the line. -/
def line (cs : List Char) : List Char := cs.takeWhile (· != '\n')

/-- The text up to and including the first end-of-comment mark. -/
def throughCommentEnd : List Char → List Char
  | [] => []
  | [c] => [c]
  | c :: d :: cs =>
    if c = '*' ∧ d = '/' then [c, d] else c :: throughCommentEnd (d :: cs)

/-- The text up to and including the first `quote`; a backslash hides the character after it. -/
def throughQuote (quote : Char) : List Char → List Char
  | [] => []
  | [c] => [c]
  | c :: d :: cs =>
    if c = quote then [c]
    else if c = '\\' then c :: d :: throughQuote quote cs
    else c :: throughQuote quote (d :: cs)

/-- Digits with at most one point and at most one exponent mark; a sign stands only directly after
the exponent mark. The flags say which of the three may still come. -/
def number (point exponent sign : Bool) : List Char → List Char
  | [] => []
  | c :: cs =>
    if c.isDigit then c :: number point exponent false cs
    else if c = '.' ∧ point then c :: number false exponent false cs
    else if isExponentMark c ∧ exponent then c :: number point false true cs
    else if isSign c ∧ sign then c :: number point exponent false cs
    else []

/-- The longest operator or punctuation mark that the text starts with, of at most `n`
characters. -/
def mark? (cs : List Char) : Nat → Option (TokenKind × List Char)
  | 0 => none
  | n + 1 =>
    match markKind? (String.ofList (cs.take (n + 1))) with
    | some kind => some (kind, cs.take (n + 1))
    | none => mark? cs n

/-! ## The scan -/

/-- Does the text start a number? -/
def startsNumber : List Char → Bool
  | [] => false
  | [c] => c.isDigit
  | c :: d :: _ => c.isDigit || (c == '.' && d.isDigit)

/-- A word, an operator, a punctuation mark, or a single character that is none of them. -/
def wordOrMark (cs : List Char) : TokenKind × List Char :=
  if cs.head?.any isWordStart then
    let word := cs.takeWhile isWordPart
    (wordKind (String.ofList word), word)
  else
    (mark? cs longestMark).getD (.unknown, cs.take 1)

/-- The token that starts the text, which begins with no blank. -/
def scan (cs : List Char) : TokenKind × List Char :=
  match cs with
  | '/' :: '/' :: _ => (.comment, line cs)
  | '/' :: '*' :: body => (.comment, '/' :: '*' :: throughCommentEnd body)
  | '\x22' :: body => (.string, '\x22' :: throughQuote '\x22' body)
  | '\x27' :: body => (.string, '\x27' :: throughQuote '\x27' body)
  | '\x60' :: body => (.templateString, '\x60' :: throughQuote '\x60' body)
  | cs => if startsNumber cs then (.number, number true true false cs) else wordOrMark cs

/-! ## A lexeme starts its text -/

theorem throughCommentEnd_isPrefix (cs : List Char) : throughCommentEnd cs <+: cs := by
  fun_induction throughCommentEnd cs with
  | case1 => exact List.nil_prefix
  | case2 c => exact List.prefix_rfl
  | case3 c d cs => exact ⟨cs, rfl⟩
  | case4 c d cs _ ih => exact (List.prefix_cons_inj c).2 ih

theorem throughQuote_isPrefix (quote : Char) (cs : List Char) :
    throughQuote quote cs <+: cs := by
  fun_induction throughQuote quote cs with
  | case1 => exact List.nil_prefix
  | case2 c => exact List.prefix_rfl
  | case3 d cs => exact ⟨d :: cs, rfl⟩
  | case4 d cs _ ih => exact (List.prefix_cons_inj _).2 ((List.prefix_cons_inj d).2 ih)
  | case5 c d cs _ _ ih => exact (List.prefix_cons_inj c).2 ih

theorem number_isPrefix (point exponent sign : Bool) (cs : List Char) :
    number point exponent sign cs <+: cs := by
  induction cs generalizing point exponent sign with
  | nil => exact List.nil_prefix
  | cons c cs ih =>
    rw [number]
    split
    · exact (List.prefix_cons_inj c).2 (ih ..)
    split
    · exact (List.prefix_cons_inj c).2 (ih ..)
    split
    · exact (List.prefix_cons_inj c).2 (ih ..)
    split
    · exact (List.prefix_cons_inj c).2 (ih ..)
    · exact List.nil_prefix

theorem mark?_isPrefix {cs lexeme : List Char} {kind : TokenKind} {n : Nat}
    (h : mark? cs n = some (kind, lexeme)) : lexeme <+: cs := by
  induction n with
  | zero => simp [mark?] at h
  | succ n ih =>
    rw [mark?] at h
    split at h
    · obtain ⟨-, rfl⟩ : _ ∧ cs.take (n + 1) = lexeme := by simpa using h
      exact List.take_prefix ..
    · exact ih h

theorem mark?_ne_nil {cs lexeme : List Char} {kind : TokenKind} {n : Nat} (hcs : cs ≠ [])
    (h : mark? cs n = some (kind, lexeme)) : lexeme ≠ [] := by
  induction n with
  | zero => simp [mark?] at h
  | succ n ih =>
    rw [mark?] at h
    split at h
    · obtain ⟨-, rfl⟩ : _ ∧ cs.take (n + 1) = lexeme := by simpa using h
      simp [hcs]
    · exact ih h

theorem wordOrMark_isPrefix (cs : List Char) : (wordOrMark cs).2 <+: cs := by
  unfold wordOrMark
  split
  · exact List.takeWhile_prefix _
  · cases h : mark? cs longestMark with
    | none => exact List.take_prefix ..
    | some found => exact mark?_isPrefix h

theorem isWordPart_of_isWordStart {c : Char} (h : isWordStart c) : isWordPart c := by
  simp only [isWordStart, isWordPart, Char.isAlphanum, Bool.or_eq_true] at h ⊢
  exact h.imp_left Or.inl

theorem wordOrMark_ne_nil {cs : List Char} (hcs : cs ≠ []) : (wordOrMark cs).2 ≠ [] := by
  unfold wordOrMark
  split
  · next h =>
    obtain ⟨c, cs, rfl⟩ := List.exists_cons_of_ne_nil hcs
    simp [isWordPart_of_isWordStart (c := c) (by simpa using h)]
  · cases h : mark? cs longestMark with
    | none => simp [hcs]
    | some found => exact mark?_ne_nil hcs h

theorem number_ne_nil {cs : List Char} (h : startsNumber cs) :
    number true true false cs ≠ [] := by
  match cs with
  | [] => simp [startsNumber] at h
  | [c] => simp_all [startsNumber, number]
  | c :: d :: cs =>
    simp only [startsNumber, Bool.or_eq_true, Bool.and_eq_true, beq_iff_eq] at h
    rw [number]
    split
    · simp
    · rcases h with h | h
      · contradiction
      · simp [h.1]

/-- The lexeme is an initial part of the text. -/
theorem scan_isPrefix (cs : List Char) : (scan cs).2 <+: cs := by
  unfold scan
  split
  · exact List.takeWhile_prefix _
  · exact (List.prefix_cons_inj _).2 ((List.prefix_cons_inj _).2 (throughCommentEnd_isPrefix _))
  · exact (List.prefix_cons_inj _).2 (throughQuote_isPrefix ..)
  · exact (List.prefix_cons_inj _).2 (throughQuote_isPrefix ..)
  · exact (List.prefix_cons_inj _).2 (throughQuote_isPrefix ..)
  · split
    · exact number_isPrefix ..
    · exact wordOrMark_isPrefix _

/-- A text that is not empty starts with a lexeme that is not empty. -/
theorem scan_ne_nil {cs : List Char} (hcs : cs ≠ []) : (scan cs).2 ≠ [] := by
  unfold scan
  split
  · simp [line]
  · simp
  · simp
  · simp
  · simp
  · split
    · next h => exact number_ne_nil h
    · exact wordOrMark_ne_nil hcs

end Lexeme

end JsSyntax
