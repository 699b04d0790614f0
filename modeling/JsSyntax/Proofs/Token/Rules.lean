import Mathlib.Data.List.Chain
import JsSyntax.Token.Vocabulary

/-! # Lexical rules

The lexical grammar as a list of rules, with no scanner in sight. A rule applies to a text that
one of its beginnings starts; it takes the longest or the shortest prefix of the text that is in
its language. The first rule that applies gives the lexeme (`First`), and no text has two
(`First.unique`).

What a rule takes does not depend on what is far behind it: the text behind the lexeme may be cut
short (`First.truncate`), and it may go on with a character at which the lexeme ends
(`First.extend`).
-/

set_option autoImplicit false

namespace JsSyntax

/-! ## Prefixes in a language -/

abbrev Language := List Char → Prop

/-- A word of the language starts the text. -/
def Begins (L : Language) (text : List Char) : Prop := ∃ u, L u ∧ u <+: text

structure Longest (L : Language) (text v : List Char) : Prop where
  isPrefix : v <+: text
  mem : L v
  le : ∀ w, L w → w <+: text → w.length ≤ v.length

structure Shortest (L : Language) (text v : List Char) : Prop where
  isPrefix : v <+: text
  mem : L v
  le : ∀ w, L w → w <+: text → v.length ≤ w.length

/-- The shortest prefix in the language, or the whole text if no prefix is. -/
def ShortestOrAll (L : Language) (text v : List Char) : Prop :=
  Shortest L text v ∨ v = text ∧ ¬ Begins L text

section

variable {L : Language} {text v w : List Char}

theorem Begins.mono {text' : List Char} (h : Begins L text) (hp : text <+: text') :
    Begins L text' := by
  obtain ⟨u, hu, hut⟩ := h
  exact ⟨u, hu, hut.trans hp⟩

theorem eq_of_isPrefix_of_length (hv : v <+: text) (hw : w <+: text)
    (hlength : v.length = w.length) : v = w :=
  (List.prefix_of_prefix_length_le hv hw (Nat.le_of_eq hlength)).eq_of_length hlength

theorem Longest.unique (hv : Longest L text v) (hw : Longest L text w) : v = w :=
  eq_of_isPrefix_of_length hv.isPrefix hw.isPrefix
    (Nat.le_antisymm (hw.le v hv.mem hv.isPrefix) (hv.le w hw.mem hw.isPrefix))

theorem Shortest.unique (hv : Shortest L text v) (hw : Shortest L text w) : v = w :=
  eq_of_isPrefix_of_length hv.isPrefix hw.isPrefix
    (Nat.le_antisymm (hv.le w hw.mem hw.isPrefix) (hw.le v hv.mem hv.isPrefix))

theorem ShortestOrAll.unique (hv : ShortestOrAll L text v) (hw : ShortestOrAll L text w) :
    v = w := by
  rcases hv with hv | ⟨rfl, hv⟩ <;> rcases hw with hw | ⟨rfl, hw⟩
  · exact hv.unique hw
  · exact absurd ⟨v, hv.mem, hv.isPrefix⟩ hw
  · exact absurd ⟨w, hw.mem, hw.isPrefix⟩ hv
  · rfl

/-- One more character in front, of the text and of every word. -/
theorem ShortestOrAll.cons {L' : Language} {c : Char} (h : ShortestOrAll L text v)
    (hL : ∀ w, L' w ↔ ∃ w', w = c :: w' ∧ L w') : ShortestOrAll L' (c :: text) (c :: v) := by
  rcases h with h | ⟨rfl, h⟩
  · refine .inl ⟨(List.prefix_cons_inj c).2 h.isPrefix, (hL _).2 ⟨v, rfl, h.mem⟩, ?_⟩
    intro w hw hp
    obtain ⟨w', rfl, hw'⟩ := (hL w).1 hw
    simpa using h.le w' hw' ((List.prefix_cons_inj c).1 hp)
  · refine .inr ⟨rfl, ?_⟩
    rintro ⟨w, hw, hp⟩
    obtain ⟨w', rfl, hw'⟩ := (hL w).1 hw
    exact h ⟨w', hw', (List.prefix_cons_inj c).1 hp⟩

theorem longest_takeWhile (p : Char → Bool) (text : List Char) :
    Longest (fun v => ∀ c ∈ v, p c) text (text.takeWhile p) := by
  refine ⟨List.takeWhile_prefix _, fun c hc => List.all_eq_true.1 List.all_takeWhile c hc, ?_⟩
  rintro w hw ⟨rest, rfl⟩
  rw [List.takeWhile_append_of_pos hw, List.length_append]
  omega

end

/-! ## Rules -/

inductive Choice where
  | longest
  | shortest

/-- `choice.part L text v`: the part of the text to take is `v`. -/
def Choice.part : Choice → Language → List Char → List Char → Prop
  | .longest => Longest
  | .shortest => ShortestOrAll

/-- Texts with a given beginning start with a token: what part of the text it covers, and its
kind. -/
structure Rule where
  beginning : Language
  language : Language
  choice : Choice
  kind : List Char → TokenKind
  /-- The token covers the beginning. -/
  covers : ∀ {text v}, Begins beginning text → choice.part language text v → Begins beginning v

namespace Rule

def Applies (rule : Rule) (text : List Char) : Prop := Begins rule.beginning text

def Takes (rule : Rule) (text v : List Char) : Prop := rule.choice.part rule.language text v

theorem Takes.unique {rule : Rule} {text v w : List Char} (hv : rule.Takes text v)
    (hw : rule.Takes text w) : v = w := by
  cases hc : rule.choice <;> rw [Takes, hc] at hv hw
  · exact Longest.unique hv hw
  · exact ShortestOrAll.unique hv hw

end Rule

/-- The first rule that applies to the text gives the kind and the lexeme. -/
inductive First (text : List Char) (kind : TokenKind) (v : List Char) : List Rule → Prop where
  | here {rule : Rule} {rules : List Rule} :
      rule.Applies text → rule.Takes text v → kind = rule.kind v → First text kind v (rule :: rules)
  | later {rule : Rule} {rules : List Rule} :
      ¬ rule.Applies text → First text kind v rules → First text kind v (rule :: rules)

namespace First

variable {text v w : List Char} {kind kind' : TokenKind} {rules : List Rule}

theorem unique (h : First text kind v rules) (h' : First text kind' w rules) :
    kind = kind' ∧ v = w := by
  induction h with
  | here ha ht hk =>
    cases h' with
    | here _ ht' hk' =>
      obtain rfl := ht.unique ht'
      exact ⟨hk.trans hk'.symm, rfl⟩
    | later ha' _ => exact absurd ha ha'
  | later ha _ ih =>
    cases h' with
    | here ha' _ _ => exact absurd ha' ha
    | later _ h' => exact ih h'

theorem exists_rule (h : First text kind v rules) :
    ∃ rule ∈ rules, rule.Applies text ∧ rule.Takes text v ∧ kind = rule.kind v := by
  induction h with
  | here ha ht hk => exact ⟨_, List.mem_cons_self, ha, ht, hk⟩
  | later _ _ ih =>
    obtain ⟨rule, hr, h⟩ := ih
    exact ⟨rule, List.mem_cons_of_mem _ hr, h⟩

end First

/-! ## Behind the lexeme -/

section

variable {L : Language} {text v rest rest' more : List Char} {c : Char}

theorem Longest.truncate (h : Longest L (v ++ rest) v) (hp : rest' <+: rest) :
    Longest L (v ++ rest') v :=
  ⟨List.prefix_append .., h.mem,
    fun w hw hw' => h.le w hw (hw'.trans ((List.prefix_append_right_inj v).2 hp))⟩

theorem ShortestOrAll.truncate (h : ShortestOrAll L (v ++ rest) v) (hp : rest' <+: rest) :
    ShortestOrAll L (v ++ rest') v := by
  rcases h with h | ⟨heq, h⟩
  · exact .inl ⟨List.prefix_append .., h.mem,
      fun w hw hw' => h.le w hw (hw'.trans ((List.prefix_append_right_inj v).2 hp))⟩
  · obtain rfl : rest = [] := List.append_cancel_left (heq.symm.trans (List.append_nil v).symm)
    obtain rfl := List.prefix_nil.1 hp
    exact .inr ⟨heq, h⟩

theorem Rule.Takes.truncate {rule : Rule} (h : rule.Takes (v ++ rest) v) (hp : rest' <+: rest) :
    rule.Takes (v ++ rest') v := by
  cases hc : rule.choice <;> rw [Takes, hc] at h ⊢
  · exact Longest.truncate h hp
  · exact ShortestOrAll.truncate h hp

/-- The text behind a lexeme may be cut short. -/
theorem First.truncate {kind : TokenKind} {rules : List Rule}
    (h : First (v ++ rest) kind v rules) (hp : rest' <+: rest) :
    First (v ++ rest') kind v rules := by
  induction h with
  | @here rule _ ha ht hk =>
    exact .here ((rule.covers ha ht).mono (List.prefix_append ..)) (ht.truncate hp) hk
  | later ha _ ih =>
    exact .later (fun h => ha (h.mono ((List.prefix_append_right_inj v).2 hp))) ih

/-- No word of the language has the character behind other ones. -/
def Avoids (L : Language) (c : Char) : Prop := ∀ u v, L (u ++ c :: v) → u = []

theorem Avoids.of_not_mem (h : ∀ u, L u → c ∉ u) : Avoids L c :=
  fun _ _ hu => absurd (by simp) (h _ hu)

/-- A word that does not go on with the character ends before it. -/
theorem Avoids.isPrefix {u : List Char} (hc : Avoids L c) (hne : text ≠ []) (hu : L u)
    (h : u <+: text ++ c :: more) : u <+: text := by
  rcases Nat.le_total u.length text.length with hle | hle
  · exact List.prefix_of_prefix_length_le h (List.prefix_append ..) hle
  · obtain ⟨w, rfl⟩ := List.prefix_of_prefix_length_le (List.prefix_append text (c :: more)) h hle
    cases w with
    | nil => simp
    | cons d w =>
      obtain ⟨rfl, -⟩ : d = c ∧ _ := by simpa using h
      exact absurd (hc _ _ hu) hne

theorem Longest.extend (h : Longest L text v) (hne : text ≠ []) (hc : Avoids L c) :
    Longest L (text ++ c :: more) v :=
  ⟨h.isPrefix.trans (List.prefix_append ..), h.mem,
    fun w hw hp => h.le w hw (hc.isPrefix hne hw hp)⟩

/-- A word that has ended before the text did goes on no more. -/
theorem Longest.extend_of_ne (hL : ∀ {u w}, L w → u <+: w → L u) (h : Longest L text v)
    (hne : v ≠ text) : Longest L (text ++ more) v := by
  refine ⟨h.isPrefix.trans (List.prefix_append ..), h.mem, fun w hw hp => ?_⟩
  rcases Nat.le_total w.length text.length with hle | hle
  · exact h.le w hw (List.prefix_of_prefix_length_le hp (List.prefix_append ..) hle)
  · have htext := hL hw (List.prefix_of_prefix_length_le (List.prefix_append text more) hp hle)
    have heq := Nat.le_antisymm h.isPrefix.length_le (h.le text htext List.prefix_rfl)
    exact absurd (h.isPrefix.eq_of_length heq) hne

theorem ShortestOrAll.extend (h : ShortestOrAll L text v) (hv : L v) :
    ShortestOrAll L (text ++ more) v := by
  have hp : v <+: text := by
    rcases h with h | ⟨rfl, -⟩
    · exact h.isPrefix
    · exact List.prefix_rfl
  have hmore : v <+: text ++ more := hp.trans (List.prefix_append ..)
  refine .inl ⟨hmore, hv, fun w hw hwp => Nat.le_of_not_lt fun hlt => ?_⟩
  have hwt := (List.prefix_of_prefix_length_le hwp hmore (Nat.le_of_lt hlt)).trans hp
  rcases h with h | ⟨-, h⟩
  · have := h.le w hw hwt
    omega
  · exact h ⟨w, hw, hwt⟩

/-- The text may go on with a character that starts no rule, if the lexeme ends at it. -/
theorem First.extend {kind : TokenKind} {rules : List Rule} (h : First text kind v rules)
    (hb : ∀ rule ∈ rules, rule.Applies (text ++ c :: more) → rule.Applies text)
    (he : ∀ rule ∈ rules, rule.Applies text → rule.Takes text v → kind = rule.kind v →
      rule.Takes (text ++ c :: more) v) :
    First (text ++ c :: more) kind v rules := by
  induction h with
  | @here rule _ ha ht hk =>
    exact .here (ha.mono (List.prefix_append ..)) (he rule List.mem_cons_self ha ht hk) hk
  | @later rule _ ha _ ih =>
    exact .later (fun h => ha (hb rule List.mem_cons_self h))
      (ih (fun rule hr => hb rule (List.mem_cons_of_mem _ hr))
        (fun rule hr => he rule (List.mem_cons_of_mem _ hr)))

end

/-! ## The languages of the lexical grammar -/

def LineComment : Language := fun v => '\n' ∉ v

def BlockComment : Language := fun v => ∃ x, v = '/' :: '*' :: (x ++ ['*', '/'])

/-- Digits with points and exponent marks, and with signs directly after exponent marks. The flags
say whether a point, an exponent mark and a sign in front may occur. -/
@[mk_iff]
structure Numeral (point exponent sign : Bool) (v : List Char) : Prop where
  chars : ∀ c ∈ v, c.isDigit ∨ c = '.' ∨ isExponentMark c ∨ isSign c
  points : v.count '.' ≤ point.toNat
  marks : v.countP isExponentMark ≤ exponent.toNat
  head : ∀ c ∈ v.head?, isSign c → sign
  signs : v.IsChain fun a b => isSign b → isExponentMark a

namespace Numeral

variable {point exponent sign : Bool} {c : Char} {v : List Char}

theorem nil : Numeral point exponent sign [] := by
  constructor <;> simp

theorem cons_digit (hc : c.isDigit) :
    Numeral point exponent sign (c :: v) ↔ Numeral point exponent false v := by
  have hpoint : c ≠ '.' := by
    rintro rfl
    exact absurd hc (by decide)
  have hmark : isExponentMark c = false := by
    by_contra h
    simp only [isExponentMark, Bool.not_eq_false, Bool.or_eq_true, beq_iff_eq] at h
    rcases h with rfl | rfl <;> exact absurd hc (by decide)
  have hsign : isSign c = false := by
    by_contra h
    simp only [isSign, Bool.not_eq_false, Bool.or_eq_true, beq_iff_eq] at h
    rcases h with rfl | rfl <;> exact absurd hc (by decide)
  simp [numeral_iff, List.isChain_cons, hc, hpoint, hmark, hsign]

theorem cons_point :
    Numeral point exponent sign ('.' :: v) ↔ point ∧ Numeral false exponent false v := by
  cases point <;> simp [numeral_iff, List.isChain_cons, isExponentMark, isSign]

theorem cons_mark (hc : isExponentMark c) :
    Numeral point exponent sign (c :: v) ↔ exponent ∧ Numeral point false true v := by
  simp only [isExponentMark, Bool.or_eq_true, beq_iff_eq] at hc
  rcases hc with rfl | rfl <;> cases exponent <;>
    simp [numeral_iff, List.isChain_cons, isExponentMark, isSign]

theorem cons_sign (hc : isSign c) :
    Numeral point exponent sign (c :: v) ↔ sign ∧ Numeral point exponent false v := by
  simp only [isSign, Bool.or_eq_true, beq_iff_eq] at hc
  rcases hc with rfl | rfl <;> simp [numeral_iff, List.isChain_cons, isExponentMark, isSign] <;>
    tauto

end Numeral

/-- Digits, at most one point, at most one exponent mark, and signs only directly after it. -/
def NumberText : Language := Numeral true true false

/-- What stands between quotes: characters other than the quote and the backslash, and pairs of a
backslash and any character. -/
inductive QuoteBody (quote : Char) : List Char → Prop where
  | nil : QuoteBody quote []
  | char {c : Char} {y : List Char} :
      c ≠ quote → c ≠ '\\' → QuoteBody quote y → QuoteBody quote (c :: y)
  | escape {c : Char} {y : List Char} : QuoteBody quote y → QuoteBody quote ('\\' :: c :: y)

def Quoted (quote : Char) : Language :=
  fun v => ∃ y, v = quote :: (y ++ [quote]) ∧ QuoteBody quote y

def Word : Language := fun v => ∀ c ∈ v, isWordPart c

def Mark : Language := fun v =>
  String.ofList v ∈ operators ∨ String.ofList v ∈ punctuationMarks

def Single : Language := fun v => ∃ c, v = [c]

/-! ## The rules of the lexical grammar -/

/-- The kind of a word. -/
def wordKindOf (v : List Char) : TokenKind :=
  if v = "true".toList ∨ v = "false".toList then .boolean
  else if v = "null".toList then .null
  else if String.ofList v ∈ reservedWords then .keyword
  else .identifier

/-- The kind of an operator or a punctuation mark. -/
def markKindOf (v : List Char) : TokenKind :=
  if String.ofList v ∈ operators then .operator else .punctuation

theorem longest_covers {B L : Language} (h : ∀ u, B u → L u) {text v : List Char}
    (hb : Begins B text) (hv : Longest L text v) : Begins B v := by
  obtain ⟨u, hu, hut⟩ := hb
  exact ⟨u, hu, List.prefix_of_prefix_length_le hut hv.isPrefix (hv.le u (h u hu) hut)⟩

theorem shortest_covers {B L : Language} (h : ∀ v, L v → Begins B v) {text v : List Char}
    (hb : Begins B text) (hv : ShortestOrAll L text v) : Begins B v := by
  rcases hv with hv | ⟨rfl, -⟩
  · exact h v hv.mem
  · exact hb

/-- From two slashes to the end of the line. -/
def lineCommentRule : Rule where
  beginning u := u = ['/', '/']
  language := LineComment
  choice := .longest
  kind _ := .comment
  covers := longest_covers (by
    rintro _ rfl
    simp [LineComment])

/-- From a slash and a star through the next star and slash. -/
def blockCommentRule : Rule where
  beginning u := u = ['/', '*']
  language := BlockComment
  choice := .shortest
  kind _ := .comment
  covers := shortest_covers (by
    rintro _ ⟨x, rfl⟩
    exact ⟨_, rfl, x ++ ['*', '/'], rfl⟩)

/-- A digit and a point with a digit behind it start a number. -/
def NumberStart : Language := fun u => ∃ d : Char, d.isDigit ∧ (u = [d] ∨ u = ['.', d])

def numberRule : Rule where
  beginning := NumberStart
  language := NumberText
  choice := .longest
  kind _ := .number
  covers := longest_covers (by
    rintro _ ⟨d, hd, rfl | rfl⟩
    · exact (Numeral.cons_digit hd).2 .nil
    · exact Numeral.cons_point.2 ⟨rfl, (Numeral.cons_digit hd).2 .nil⟩)

/-- From a quote through the next one that no backslash hides. -/
def quotedRule (kind : TokenKind) (quote : Char) : Rule where
  beginning u := u = [quote]
  language := Quoted quote
  choice := .shortest
  kind _ := kind
  covers := shortest_covers (by
    rintro _ ⟨y, rfl, -⟩
    exact ⟨_, rfl, y ++ [quote], rfl⟩)

def wordRule : Rule where
  beginning u := ∃ c, isWordStart c ∧ u = [c]
  language := Word
  choice := .longest
  kind := wordKindOf
  covers := longest_covers (by
    rintro _ ⟨c, hc, rfl⟩ d hd
    obtain rfl := List.mem_singleton.1 hd
    simp only [isWordStart, isWordPart, Char.isAlphanum, Bool.or_eq_true] at hc ⊢
    exact hc.imp_left Or.inl)

def markRule : Rule where
  beginning := Mark
  language := Mark
  choice := .longest
  kind := markKindOf
  covers := longest_covers fun _ => id

/-- A character that starts nothing else. -/
def singleRule : Rule where
  beginning := Single
  language := Single
  choice := .shortest
  kind _ := .unknown
  covers := shortest_covers fun v hv => ⟨v, hv, List.prefix_rfl⟩

def lexicalRules : List Rule :=
  [lineCommentRule, blockCommentRule, numberRule, quotedRule .string '\x22',
   quotedRule .string '\x27', quotedRule .templateString '\x60', wordRule, markRule, singleRule]

end JsSyntax
