import JsSyntax.Proofs.Token.Lossless
import JsSyntax.Proofs.Token.Rules

/-! # The scan obeys the lexical rules

The scanning functions walk over the text with flags and one character of lookahead. Each takes
the prefix that its rule asks for, so the kind and the text of every token of a source are those of
the first rule that applies where the token starts (`tokenize_first`). The rules determine the
scan (`LexemeAt.of_first`), which turns what is known of them into facts about lexemes.
-/

set_option autoImplicit false

namespace JsSyntax

namespace Lexeme

/-! ## Comments -/

theorem line_longest (cs : List Char) : Longest LineComment cs (line cs) := by
  have h := longest_takeWhile (· != '\n') cs
  have hL : (fun v : List Char => ∀ c ∈ v, (c != '\n') = true) = LineComment := by
    funext v
    simp only [bne_iff_ne, ne_eq, LineComment, eq_iff_iff]
    exact ⟨fun h hmem => h _ hmem rfl, fun h c hc hcn => h (hcn ▸ hc)⟩
  rwa [hL] at h

theorem throughCommentEnd_shortest (cs : List Char) :
    ShortestOrAll (fun w => ∃ x, w = x ++ ['*', '/']) cs (throughCommentEnd cs) := by
  fun_induction throughCommentEnd cs with
  | case1 =>
    refine .inr ⟨rfl, ?_⟩
    rintro ⟨_, ⟨x, rfl⟩, hp⟩
    simpa using hp.length_le
  | case2 c =>
    refine .inr ⟨rfl, ?_⟩
    rintro ⟨_, ⟨x, rfl⟩, hp⟩
    simpa using hp.length_le
  | case3 c d cs h =>
    obtain ⟨rfl, rfl⟩ := h
    refine .inl ⟨⟨cs, rfl⟩, ⟨[], rfl⟩, ?_⟩
    rintro _ ⟨x, rfl⟩ -
    simp
  | case4 c d cs h ih =>
    -- A word of the language that starts the text is not the mark itself, so it goes on behind `c`.
    have htail : ∀ x, x ++ ['*', '/'] <+: c :: d :: cs → ∃ x', x = c :: x' := by
      rintro (_ | ⟨e, x⟩) hp
      · obtain ⟨rfl, rfl⟩ : '*' = c ∧ '/' = d := by simpa using hp
        exact absurd ⟨rfl, rfl⟩ h
      · obtain ⟨rfl, -⟩ := List.cons_prefix_cons.1 hp
        exact ⟨x, rfl⟩
    rcases ih with ih | ⟨heq, ih⟩
    · obtain ⟨x, hx⟩ := ih.mem
      refine .inl ⟨(List.prefix_cons_inj c).2 ih.isPrefix, ⟨c :: x, by rw [hx]; rfl⟩, ?_⟩
      rintro _ ⟨y, rfl⟩ hp
      obtain ⟨y, rfl⟩ := htail y hp
      simpa using ih.le _ ⟨y, rfl⟩ ((List.prefix_cons_inj c).1 hp)
    · refine .inr ⟨by rw [heq], ?_⟩
      rintro ⟨_, ⟨y, rfl⟩, hp⟩
      obtain ⟨y, rfl⟩ := htail y hp
      exact ih ⟨_, ⟨y, rfl⟩, (List.prefix_cons_inj c).1 hp⟩

theorem blockComment_shortest (body : List Char) :
    ShortestOrAll BlockComment ('/' :: '*' :: body) ('/' :: '*' :: throughCommentEnd body) := by
  refine .cons (L := fun w => ∃ x, w = '*' :: (x ++ ['*', '/'])) ?_ ?_
  · refine (throughCommentEnd_shortest body).cons fun w => ?_
    exact ⟨fun ⟨x, hx⟩ => ⟨_, hx, x, rfl⟩, fun ⟨_, hx, x, hx'⟩ => ⟨x, hx' ▸ hx⟩⟩
  · intro w
    exact ⟨fun ⟨x, hx⟩ => ⟨_, hx, x, rfl⟩, fun ⟨_, hx, x, hx'⟩ => ⟨x, hx' ▸ hx⟩⟩

/-! ## Strings -/

section

variable {quote : Char}

theorem throughQuote_closed {y : List Char} (hq : quote ≠ '\\') (h : QuoteBody quote y)
    (rest : List Char) : throughQuote quote (y ++ quote :: rest) = y ++ [quote] := by
  induction h with
  | nil => cases rest <;> simp [throughQuote]
  | @char c y hc hb h ih =>
    cases y with
    | nil => simpa [throughQuote, hc, hb] using ih
    | cons d y => simpa [throughQuote, hc, hb] using ih
  | @escape c y _ ih => simpa [throughQuote, hq.symm] using ih

theorem throughQuote_cases (quote : Char) (cs : List Char) :
    (∃ y, throughQuote quote cs = y ++ [quote] ∧ QuoteBody quote y) ∨
      throughQuote quote cs = cs := by
  fun_induction throughQuote quote cs with
  | case1 => exact .inr rfl
  | case2 c => exact .inr rfl
  | case3 d cs => exact .inl ⟨[], rfl, .nil⟩
  | case4 d cs _ ih =>
    rcases ih with ⟨y, hy, hbody⟩ | h
    · exact .inl ⟨_, by rw [hy]; rfl, hbody.escape⟩
    · exact .inr (by rw [h])
  | case5 c d cs hc hb ih =>
    rcases ih with ⟨y, hy, hbody⟩ | h
    · exact .inl ⟨_, by rw [hy]; rfl, hbody.char hc hb⟩
    · exact .inr (by rw [h])

/-- At most one prefix of a text is closed by the quote, so it is the shortest. -/
theorem throughQuote_shortest (hq : quote ≠ '\\') (cs : List Char) :
    ShortestOrAll (fun w => ∃ y, w = y ++ [quote] ∧ QuoteBody quote y) cs
      (throughQuote quote cs) := by
  have hclosed : ∀ w, (∃ y, w = y ++ [quote] ∧ QuoteBody quote y) → w <+: cs →
      throughQuote quote cs = w := by
    rintro _ ⟨y, rfl, hbody⟩ ⟨rest, rfl⟩
    rw [List.append_assoc]
    exact throughQuote_closed hq hbody rest
  by_cases hb : Begins (fun w => ∃ y, w = y ++ [quote] ∧ QuoteBody quote y) cs
  · obtain ⟨w, hw, hp⟩ := hb
    refine .inl ⟨throughQuote_isPrefix .., hclosed w hw hp ▸ hw, fun w' hw' hp' => ?_⟩
    rw [hclosed w' hw' hp']
  · rcases throughQuote_cases quote cs with hw | hall
    · exact absurd ⟨_, hw, throughQuote_isPrefix ..⟩ hb
    · exact .inr ⟨hall, hb⟩

theorem quoted_shortest (hq : quote ≠ '\\') (body : List Char) :
    ShortestOrAll (Quoted quote) (quote :: body) (quote :: throughQuote quote body) :=
  (throughQuote_shortest hq body).cons fun _ =>
    ⟨fun ⟨y, hw, hy⟩ => ⟨_, hw, y, rfl, hy⟩, fun ⟨_, hw, y, hw', hy⟩ => ⟨y, hw' ▸ hw, hy⟩⟩

end

/-! ## Numbers -/

theorem number_longest (point exponent sign : Bool) (cs : List Char) :
    Longest (Numeral point exponent sign) cs (number point exponent sign cs) := by
  induction cs generalizing point exponent sign with
  | nil => exact ⟨List.prefix_rfl, .nil, fun w _ hp => hp.length_le⟩
  | cons c cs ih =>
    -- Reading `c` is reading a numeral with the flags that are left.
    have hcons : ∀ {p e s : Bool}, (∀ v, Numeral point exponent sign (c :: v) ↔ Numeral p e s v) →
        Longest (Numeral point exponent sign) (c :: cs) (c :: number p e s cs) := by
      intro p e s hiff
      have h := ih p e s
      refine ⟨(List.prefix_cons_inj c).2 h.isPrefix, (hiff _).2 h.mem, ?_⟩
      rintro (_ | ⟨d, w⟩) hw hp
      · exact Nat.zero_le _
      · obtain ⟨rfl, htail⟩ := List.cons_prefix_cons.1 hp
        simpa using h.le w ((hiff w).1 hw) htail
    rw [number]
    split
    · next hc => exact hcons fun v => Numeral.cons_digit hc
    split
    · next h =>
      obtain ⟨rfl, hpoint⟩ := h
      exact hcons fun v => by simp [Numeral.cons_point, hpoint]
    split
    · next h => exact hcons fun v => by simp [Numeral.cons_mark h.1, h.2]
    split
    · next h => exact hcons fun v => by simp [Numeral.cons_sign h.1, h.2]
    · next hdigit hpoint hmark hsign =>
      refine ⟨List.nil_prefix, .nil, ?_⟩
      rintro (_ | ⟨d, w⟩) hw hp
      · exact Nat.zero_le _
      · obtain ⟨rfl, -⟩ := List.cons_prefix_cons.1 hp
        exfalso
        rcases hw.chars d List.mem_cons_self with hd | rfl | hd | hd
        · exact hdigit hd
        · exact hpoint ⟨rfl, (Numeral.cons_point.1 hw).1⟩
        · exact hmark ⟨hd, ((Numeral.cons_mark hd).1 hw).1⟩
        · exact hsign ⟨hd, ((Numeral.cons_sign hd).1 hw).1⟩

/-! ## Words and marks -/

theorem wordKind_ofList (v : List Char) : wordKind (String.ofList v) = wordKindOf v := by
  have heq : ∀ s : String, String.ofList v = s ↔ v = s.toList := fun s =>
    ⟨fun h => by rw [← h, String.toList_ofList], fun h => by rw [h, String.ofList_toList]⟩
  simp only [wordKind, wordKindOf, isReserved, heq, List.contains_iff_mem]

theorem markKind?_ofList (v : List Char) (kind : TokenKind) :
    markKind? (String.ofList v) = some kind ↔ Mark v ∧ kind = markKindOf v := by
  simp only [markKind?, Mark, markKindOf, List.contains_iff_mem]
  split
  · next h => simp [h, eq_comm]
  · next h =>
    split
    · next h' => simp [h, h', eq_comm]
    · next h' => simp [h, h']

theorem length_le_longestMark {v : List Char} (h : Mark v) : v.length ≤ longestMark := by
  have hall : ∀ m ∈ operators ++ punctuationMarks, m.toList.length ≤ longestMark := by
    decide +kernel
  have := hall (String.ofList v) (by simpa [Mark] using h)
  rwa [String.toList_ofList] at this

/-- The search finds the longest of the marks with at most `n` characters, if there is one. -/
theorem mark?_longest (cs : List Char) (n : Nat) :
    match mark? cs n with
    | some (kind, v) => Longest (fun w => Mark w ∧ w.length ≤ n) cs v ∧ kind = markKindOf v
    | none => ¬ Begins (fun w => Mark w ∧ w.length ≤ n) cs := by
  induction n with
  | zero =>
    rintro ⟨w, ⟨hw, hn⟩, -⟩
    obtain rfl := List.length_eq_zero_iff.1 (Nat.le_zero.1 hn)
    exact absurd hw (by simp only [Mark]; decide +kernel)
  | succ n ih =>
    -- A prefix of at most `n + 1` characters is the one that is tried now, or comes later.
    have hshort : ∀ w, w <+: cs → w.length ≤ n + 1 → w ≠ cs.take (n + 1) → w.length ≤ n := by
      intro w hp hn hne
      refine Nat.le_of_lt_succ (Nat.lt_of_le_of_ne hn fun heq => hne ?_)
      rw [← Nat.succ_eq_add_one, ← heq]
      exact List.prefix_iff_eq_take.1 hp
    rw [mark?]
    cases hk : markKind? (String.ofList (cs.take (n + 1))) with
    | some kind =>
      obtain ⟨hmark, rfl⟩ := (markKind?_ofList _ _).1 hk
      refine ⟨⟨List.take_prefix .., ⟨hmark, by simp⟩, ?_⟩, rfl⟩
      rintro w ⟨-, hn⟩ hp
      have := hp.length_le
      simp
      omega
    | none =>
      have hnot : ¬ Mark (cs.take (n + 1)) := fun h => by
        have := (markKind?_ofList _ _).2 ⟨h, rfl⟩
        rw [hk] at this
        cases this
      have hL : ∀ w, w <+: cs → (Mark w ∧ w.length ≤ n + 1 ↔ Mark w ∧ w.length ≤ n) := fun w hp =>
        and_congr_right fun hw => ⟨fun hn => hshort w hp hn fun h => hnot (h ▸ hw),
          Nat.le_succ_of_le⟩
      simp only
      cases h : mark? cs n with
      | some found =>
        obtain ⟨kind, v⟩ := found
        rw [h] at ih
        obtain ⟨hv, rfl⟩ := ih
        exact ⟨⟨hv.isPrefix, (hL v hv.isPrefix).2 hv.mem,
          fun w hw hp => hv.le w ((hL w hp).1 hw) hp⟩, rfl⟩
      | none =>
        rw [h] at ih
        rintro ⟨w, hw, hp⟩
        exact ih ⟨w, (hL w hp).1 hw, hp⟩

/-! ## The scan -/

theorem begins_eq_iff (u text : List Char) : Begins (fun v => v = u) text ↔ u <+: text :=
  ⟨fun ⟨_, hu, hp⟩ => hu ▸ hp, fun h => ⟨u, rfl, h⟩⟩

theorem begins_number_iff (text : List Char) : Begins NumberStart text ↔ startsNumber text := by
  constructor
  · rintro ⟨_, ⟨d, hd, rfl | rfl⟩, rest, rfl⟩
    · cases rest <;> simp [startsNumber, hd]
    · simp [startsNumber, hd]
  · intro h
    rcases text with _ | ⟨c, _ | ⟨d, text⟩⟩
    · simp [startsNumber] at h
    · exact ⟨[c], ⟨c, by simpa [startsNumber] using h, .inl rfl⟩, List.prefix_rfl⟩
    · simp only [startsNumber, Bool.or_eq_true, Bool.and_eq_true, beq_iff_eq] at h
      rcases h with h | ⟨rfl, h⟩
      · exact ⟨[c], ⟨c, h, .inl rfl⟩, ⟨_, rfl⟩⟩
      · exact ⟨['.', d], ⟨d, h, .inr rfl⟩, ⟨text, rfl⟩⟩

theorem begins_word_iff (text : List Char) :
    Begins (fun u => ∃ c, isWordStart c ∧ u = [c]) text ↔ text.head?.any isWordStart := by
  constructor
  · rintro ⟨_, ⟨c, hc, rfl⟩, rest, rfl⟩
    simpa using hc
  · intro h
    cases text with
    | nil => simp at h
    | cons c text => exact ⟨[c], ⟨c, by simpa using h, rfl⟩, ⟨text, rfl⟩⟩

theorem wordOrMark_first {cs : List Char} (hcs : cs ≠ []) :
    First cs (wordOrMark cs).1 (wordOrMark cs).2 [wordRule, markRule, singleRule] := by
  unfold wordOrMark
  split
  · next h =>
    exact .here ((begins_word_iff cs).2 h) (longest_takeWhile isWordPart cs) (wordKind_ofList _)
  · next h =>
    refine .later (fun hb => h ((begins_word_iff cs).1 hb)) ?_
    have hL : (fun w => Mark w ∧ w.length ≤ longestMark) = Mark := by
      funext w
      exact propext (and_iff_left_of_imp length_le_longestMark)
    have hmark := mark?_longest cs longestMark
    rw [hL] at hmark
    cases hm : mark? cs longestMark with
    | some found =>
      obtain ⟨kind, v⟩ := found
      rw [hm] at hmark
      obtain ⟨hv, rfl⟩ := hmark
      exact .here ⟨v, hv.mem, hv.isPrefix⟩ hv rfl
    | none =>
      rw [hm] at hmark
      obtain ⟨c, cs, rfl⟩ := List.exists_cons_of_ne_nil hcs
      refine .later hmark (.here ⟨[c], ⟨c, rfl⟩, ⟨cs, rfl⟩⟩ (.inl ⟨⟨cs, rfl⟩, ⟨c, rfl⟩, ?_⟩) rfl)
      rintro _ ⟨d, rfl⟩ -
      simp

theorem startsNumber_cons (c : Char) (cs : List Char) :
    startsNumber (c :: cs) = (c.isDigit || c == '.' && cs.head?.any Char.isDigit) := by
  cases cs <;> simp [startsNumber]

theorem quoted_applies_iff (kind : TokenKind) (quote c : Char) (cs : List Char) :
    (quotedRule kind quote).Applies (c :: cs) ↔ quote = c := by
  simp [Rule.Applies, quotedRule, begins_eq_iff, List.cons_prefix_cons]

/-- Behind the rules for comments and numbers, the rules for quoted text see the quotes. -/
theorem first_of_quote {kind : TokenKind} {quote : Char} {body v : List Char} {rules : List Rule}
    (hquote : quote ∈ ['\x22', '\x27', '\x60']) (h : First (quote :: body) kind v rules) :
    First (quote :: body) kind v (lineCommentRule :: blockCommentRule :: numberRule :: rules) := by
  have hslash : quote ≠ '/' ∧ quote ≠ '.' ∧ quote.isDigit = false := by
    revert hquote
    simp only [List.mem_cons, List.not_mem_nil, or_false]
    rintro (rfl | rfl | rfl) <;> decide
  obtain ⟨hslash, hpoint, hdigit⟩ := hslash
  refine .later ?_ (.later ?_ (.later ?_ h))
  · simp [Rule.Applies, lineCommentRule, begins_eq_iff, List.cons_prefix_cons, hslash.symm]
  · simp [Rule.Applies, blockCommentRule, begins_eq_iff, List.cons_prefix_cons, hslash.symm]
  · simp [Rule.Applies, numberRule, begins_number_iff, startsNumber_cons, hpoint, hdigit]

/-- The scan gives the lexeme of the first rule that applies. -/
theorem scan_first {cs : List Char} (hcs : cs ≠ []) :
    First cs (scan cs).1 (scan cs).2 lexicalRules := by
  have hother : ∀ {kind quote c} {cs : List Char}, quote ≠ c →
      ¬ (quotedRule kind quote).Applies (c :: cs) := fun h ha => h ((quoted_applies_iff ..).1 ha)
  unfold scan
  split
  · exact .here ⟨_, rfl, ⟨_, rfl⟩⟩ (line_longest _) rfl
  · refine .later ?_ (.here ⟨_, rfl, ⟨_, rfl⟩⟩ (blockComment_shortest _) rfl)
    simp [Rule.Applies, lineCommentRule, begins_eq_iff]
  · next body =>
    exact first_of_quote (by decide)
      (.here ⟨_, rfl, ⟨body, rfl⟩⟩ (quoted_shortest (by decide) body) rfl)
  · next body =>
    exact first_of_quote (by decide) (.later (hother (by decide))
      (.here ⟨_, rfl, ⟨body, rfl⟩⟩ (quoted_shortest (by decide) body) rfl))
  · next body =>
    exact first_of_quote (by decide) (.later (hother (by decide)) (.later (hother (by decide))
      (.here ⟨_, rfl, ⟨body, rfl⟩⟩ (quoted_shortest (by decide) body) rfl)))
  · next cs hline hblock hdouble hsingle hback =>
    refine .later ?_ (.later ?_ ?_)
    · rintro ⟨_, rfl, tail, rfl⟩
      exact hline tail rfl
    · rintro ⟨_, rfl, tail, rfl⟩
      exact hblock tail rfl
    split
    · next h => exact .here ((begins_number_iff _).2 h) (number_longest ..) rfl
    · next h =>
      refine .later (fun hb => h ((begins_number_iff _).1 hb)) ?_
      refine .later ?_ (.later ?_ (.later ?_ (wordOrMark_first hcs)))
      · rintro ⟨_, rfl, tail, rfl⟩
        exact hdouble tail rfl
      · rintro ⟨_, rfl, tail, rfl⟩
        exact hsingle tail rfl
      · rintro ⟨_, rfl, tail, rfl⟩
        exact hback tail rfl

/-- The rules determine the scan. -/
theorem scan_eq_of_first {cs v : List Char} {kind : TokenKind} (hcs : cs ≠ [])
    (h : First cs kind v lexicalRules) : scan cs = (kind, v) := by
  obtain ⟨hkind, hv⟩ := (scan_first hcs).unique h
  exact Prod.ext hkind hv

end Lexeme

/-! ## Lexemes and the tokens of a source -/

theorem LexemeAt.first {kind : TokenKind} {lexeme rest : List Char}
    (h : LexemeAt kind lexeme rest) : First (lexeme ++ rest) kind lexeme lexicalRules := by
  have := Lexeme.scan_first (List.append_ne_nil_of_left_ne_nil h.ne_nil rest)
  rwa [h.scan] at this

theorem LexemeAt.of_first {kind : TokenKind} {lexeme rest : List Char}
    (h : First (lexeme ++ rest) kind lexeme lexicalRules) (hne : lexeme ≠ [])
    (hstarts : ∀ c ∈ lexeme.head?, ¬ isBlank c) : LexemeAt kind lexeme rest :=
  ⟨Lexeme.scan_eq_of_first (List.append_ne_nil_of_left_ne_nil hne rest) h, hstarts, hne⟩

/-- The kind and the text of a token are those of the first rule that applies where it starts. -/
theorem tokenize_first (source : String) (t : Token) (ht : t ∈ tokenize source)
    (hkind : t.kind ≠ .eof) :
    First (slice source t.span.start.offset source.utf8ByteSize).toList t.kind t.value.toList
      lexicalRules := by
  obtain ⟨before, lexeme, rest, kind, hsource, rfl, hl⟩ :=
    (lexes_tokenize source).mem_split t ht hkind
  have hslice :
      slice source (Token.of kind lexeme (Position.first.advanceBy before)).span.start.offset
        source.utf8ByteSize = String.ofList (lexeme ++ rest) := by
    have htext : source.toList = before ++ ((lexeme ++ rest) ++ []) := by
      rw [hsource, List.append_nil]
    refine slice_of_append htext ?_ ?_
    · rw [Token.of, Position.offset_advanceBy]
      exact Nat.zero_add _
    · rw [Token.of, Position.offset_advanceBy, ← utf8Len_toList, hsource, String.utf8Len_append]
      exact congrArg (· + _) (Nat.zero_add _).symm
  rw [hslice, String.toList_ofList, Token.of, String.toList_ofList]
  exact hl.first

/-- A number ends before its second point. -/
theorem tokenize_first_numeral :
    First "1e+5.5.5".toList .number "1e+5.5".toList lexicalRules :=
  tokenize_first "1e+5.5.5" (.of .number "1e+5.5".toList .first) (by decide +kernel)
    (by decide)

end JsSyntax
