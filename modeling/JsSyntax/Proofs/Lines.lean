import JsSyntax.Proofs.Concat

/-! # Line by line

Texts that are put under one another are divided into the tokens of each, exactly if no token is
left open at the end of a text (`tokenize_append_iff`). A single lexeme is such a text: written one
on a line, the lexemes of a source are read as the same tokens (`tokenize_lexemeLines`).
-/

set_option autoImplicit false

namespace JsSyntax

/-! ## Closing marks -/

/-- The text ends with an even number of backslashes: what stands behind it is not escaped. -/
def Unescaped (y : List Char) : Prop := (y.reverse.takeWhile (· == '\\')).length % 2 = 0

/-- Quoted text ends with the quote that it starts with, unescaped, and a block comment ends with
its mark, which shares no character with the one that it starts with. -/
def ClosedLexeme : TokenKind → List Char → Prop
  | .string, v | .templateString, v => ∃ quote y, v = quote :: (y ++ [quote]) ∧ Unescaped y
  | .comment, v => ['/', '*'] <+: v → ∃ x, v = '/' :: '*' :: (x ++ ['*', '/'])
  | _, _ => True

theorem unescaped_nil : Unescaped [] := rfl

theorem not_unescaped_backslash : ¬ Unescaped ['\\'] := by
  simp [Unescaped]

theorem unescaped_cons {c : Char} {y : List Char} (hc : c ≠ '\\') :
    Unescaped (c :: y) ↔ Unescaped y := by
  simp only [Unescaped, List.reverse_cons, List.takeWhile_append]
  split
  · next h => simp [hc, ← h]
  · rfl

theorem unescaped_escape {c : Char} {y : List Char} :
    Unescaped ('\\' :: c :: y) ↔ Unescaped y := by
  simp only [Unescaped, List.reverse_cons, List.append_assoc, List.takeWhile_append]
  split
  · next h =>
    by_cases hc : c = '\\'
    · simp [hc, ← h]
    · simp [hc, ← h]
  · rfl

theorem QuoteBody.unescaped {quote : Char} {y : List Char} (h : QuoteBody quote y) :
    Unescaped y := by
  induction h with
  | nil => exact unescaped_nil
  | char _ hc _ ih => exact (unescaped_cons hc).2 ih
  | escape _ ih => exact unescaped_escape.2 ih

/-- An unescaped quote closes what is in front of it, or another quote has closed some of it. -/
theorem exists_quoteBody {y : List Char} (quote : Char) (h : Unescaped y) :
    ∃ y', QuoteBody quote y' ∧ y' ++ [quote] <+: y ++ [quote] := by
  match y with
  | [] => exact ⟨[], .nil, List.prefix_rfl⟩
  | c :: y =>
    by_cases hquote : c = quote
    · exact ⟨[], .nil, by simp [hquote]⟩
    by_cases hc : c = '\\'
    · subst hc
      match y with
      | [] => exact absurd h not_unescaped_backslash
      | d :: y =>
        obtain ⟨y', hy', hp⟩ := exists_quoteBody quote (unescaped_escape.1 h)
        exact ⟨'\\' :: d :: y', hy'.escape, by simpa using hp⟩
    · obtain ⟨y', hy', hp⟩ := exists_quoteBody quote ((unescaped_cons hc).1 h)
      exact ⟨c :: y', hy'.char hquote hc, by simpa using hp⟩

/-- The rule for quoted text stops at the closing quote. -/
theorem quoted_iff {text v : List Char} {quote : Char} (hstart : v.head? = some quote)
    (h : ShortestOrAll (Quoted quote) text v) :
    (∃ q y, v = q :: (y ++ [q]) ∧ Unescaped y) ↔ Quoted quote v := by
  constructor
  · rintro ⟨q, y, rfl, hy⟩
    obtain rfl : q = quote := by simpa using hstart
    rcases h with h | ⟨rfl, hnone⟩
    · exact h.mem
    · obtain ⟨y', hy', hp⟩ := exists_quoteBody q hy
      exact absurd ⟨_, ⟨y', rfl, hy'⟩, by simpa using hp⟩ hnone
  · rintro ⟨y, rfl, hy⟩
    exact ⟨quote, y, rfl, hy.unescaped⟩

namespace LexemeAt

variable {kind : TokenKind} {v rest : List Char}

/-- The rule that gives a string or a template. -/
theorem exists_quote (h : LexemeAt kind v rest) (hk : kind = .string ∨ kind = .templateString) :
    ∃ quote, v.head? = some quote ∧ ShortestOrAll (Quoted quote) (v ++ rest) v ∧
      (Unclosed kind v ↔ ¬ Quoted quote v) := by
  obtain ⟨rule, hr, ha, ht, hrule⟩ := h.first.exists_rule
  have hhead : ∀ {kind' : TokenKind} {quote : Char}, (quotedRule kind' quote).Applies (v ++ rest) →
      (quotedRule kind' quote).Takes (v ++ rest) v → v.head? = some quote := by
    intro kind' quote ha ht
    obtain ⟨_, rfl, tail, rfl⟩ := (quotedRule kind' quote).covers ha ht
    rfl
  have hother : ∀ {quote q : Char}, v.head? = some quote → quote ≠ q → ¬ Quoted q v := by
    rintro quote q hv hne ⟨y, rfl, -⟩
    exact hne (by simpa using hv.symm)
  revert ha ht hrule
  revert rule
  simp only [lexicalRules, List.forall_mem_cons]
  refine ⟨?_, ?_, ?_, ?_, ?_, ?_, ?_, ?_, ?_, List.forall_mem_nil _⟩
  · rintro - - rfl
    simp [lineCommentRule] at hk
  · rintro - - rfl
    simp [blockCommentRule] at hk
  · rintro - - rfl
    simp [numberRule] at hk
  · rintro ha ht rfl
    have hv := hhead ha ht
    exact ⟨_, hv, ht, and_iff_left (hother hv (by decide))⟩
  · rintro ha ht rfl
    have hv := hhead ha ht
    exact ⟨_, hv, ht, and_iff_right (hother hv (by decide))⟩
  · rintro ha ht rfl
    exact ⟨_, hhead ha ht, ht, Iff.rfl⟩
  · rintro - - rfl
    revert hk
    simp only [wordRule, wordKindOf]
    split_ifs <;> simp
  · rintro - - rfl
    revert hk
    simp only [markRule, markKindOf]
    split_ifs <;> simp
  · rintro - - rfl
    simp [singleRule] at hk

/-- A lexeme is open exactly if its closing mark is missing. -/
theorem closedLexeme_iff (h : LexemeAt kind v rest) : ClosedLexeme kind v ↔ ¬ Unclosed kind v := by
  match kind with
  | .string =>
    obtain ⟨quote, hhead, hv, hopen⟩ := h.exists_quote (.inl rfl)
    rw [hopen, Classical.not_not]
    exact quoted_iff hhead hv
  | .templateString =>
    obtain ⟨quote, hhead, hv, hopen⟩ := h.exists_quote (.inr rfl)
    rw [hopen, Classical.not_not]
    exact quoted_iff hhead hv
  | .comment => exact not_and_not_right.symm
  | .keyword | .identifier | .number | .boolean | .null | .operator | .punctuation | .eof
  | .unknown => exact iff_of_true trivial not_false

end LexemeAt

/-! ## Texts under one another -/

namespace Lexes

variable {p : Position} {cs : List Char} {ts : List Token}

/-- A token that ends before the text does is closed. -/
theorem closed_of_stop_lt (h : Lexes p cs ts) : ∀ t ∈ ts, t.kind ≠ .eof →
    t.span.stop.offset < (p.advanceBy cs).offset → ¬ Unclosed t.kind t.value.toList := by
  intro t ht hkind hlt
  obtain ⟨before, lexeme, rest, kind, rfl, rfl, hl⟩ := h.mem_split t ht hkind
  rw [Token.of, String.toList_ofList]
  refine hl.closed fun hrest => ?_
  rw [hrest, List.append_nil, Position.advanceBy_append] at hlt
  exact Nat.lt_irrefl _ hlt

theorem closedLexeme_iff (h : Lexes p cs ts) : ∀ t ∈ ts, t.kind ≠ .eof →
    (ClosedLexeme t.kind t.value.toList ↔ ¬ Unclosed t.kind t.value.toList) := by
  intro t ht hkind
  obtain ⟨before, lexeme, rest, kind, -, rfl, hl⟩ := h.mem_split t ht hkind
  rw [Token.of, String.toList_ofList]
  exact hl.closedLexeme_iff

end Lexes

/-- The last token in front of the closing one. -/
theorem mem_tokenize_of_getLast? {source : String} {t : Token}
    (h : t ∈ (tokenize source).dropLast.getLast?) : t ∈ tokenize source ∧ t.kind ≠ .eof := by
  obtain ⟨us, hus, hne⟩ := (lexes_tokenize source).closing
  rw [hus, List.dropLast_concat] at h
  have hmem := List.mem_of_getLast? h
  exact ⟨hus ▸ List.mem_append_left _ hmem, hne t hmem⟩

/-- The tokens of two texts under one another are those of the first, but for the closing one, and
then those of the second, further down, exactly if the last token of the first is closed. -/
theorem tokenize_append_iff (a b : String) :
    tokenize (a ++ "\n" ++ b) =
        (tokenize a).dropLast ++ (tokenize b).map (Token.move (below a)) ↔
      ∀ t ∈ (tokenize a).dropLast.getLast?, ClosedLexeme t.kind t.value.toList := by
  constructor
  · intro heq t ht
    obtain ⟨hmem, hkind⟩ := mem_tokenize_of_getLast? ht
    refine ((lexes_tokenize a).closedLexeme_iff t hmem hkind).2 ?_
    have hmem' : t ∈ tokenize (a ++ "\n" ++ b) :=
      heq ▸ List.mem_append_left _ (List.mem_of_getLast? ht)
    refine (lexes_tokenize (a ++ "\n" ++ b)).closed_of_stop_lt t hmem' hkind ?_
    calc t.span.stop.offset
        ≤ (Position.first.advanceBy a.toList).offset :=
          (lexes_tokenize a).stop_le t hmem hkind
      _ < ((Position.first.advanceBy a.toList).advanceBy ('\n' :: b.toList)).offset :=
          Position.offset_lt_advanceBy _ (List.cons_ne_nil _ _)
      _ = (Position.first.advanceBy (a ++ "\n" ++ b).toList).offset := by
          rw [← Position.advanceBy_append]
          simp
  · intro hclosed
    refine tokenize_append ?_
    rintro ⟨t, ht, hopen⟩
    obtain ⟨hmem, hkind⟩ := mem_tokenize_of_getLast? ht
    exact ((lexes_tokenize a).closedLexeme_iff t hmem hkind).1 (hclosed t ht) hopen

/-! ## One lexeme on a line -/

/-- The texts of the tokens, one under the other. -/
def lexemeLines (source : String) : String :=
  "\n".intercalate (((tokenize source).filter (·.kind ≠ .eof)).map Token.value)

/-- The lexemes in front of a line break are closed, so each of them ends with its line. -/
theorem Lexes.exists_lines {p : Position} {cs : List Char} {ts : List Token} (h : Lexes p cs ts)
    (q : Position) : ∃ us, us.map Token.phrase = ts.map Token.phrase ∧
      Lexes q (['\n'].intercalate ((ts.filter (·.kind ≠ .eof)).map (·.value.toList))) us := by
  induction h generalizing q with
  | stop _ => exact ⟨[.eof q], rfl, .stop (List.forall_mem_nil _)⟩
  | @token p blanks lexeme rest kind ts _ hl hts ih =>
    have hlexemes : ((Token.of kind lexeme (p.advanceBy blanks) :: ts).filter
          (·.kind ≠ .eof)).map (·.value.toList) =
        lexeme :: (ts.filter (·.kind ≠ .eof)).map (·.value.toList) := by
      simp [Token.of, hl.kind_ne_eof]
    have halone : LexemeAt kind lexeme [] := hl.truncate List.nil_prefix
    rw [hlexemes]
    cases hmore : ts.filter (·.kind ≠ .eof) with
    | nil =>
      obtain ⟨us, hus, hlines⟩ := ih (q.advanceBy lexeme)
      rw [hmore] at hlines
      refine ⟨.of kind lexeme q :: us, by simp [hus, Token.phrase, Token.of], ?_⟩
      simpa using @Lexes.token q [] lexeme [] kind us (List.forall_mem_nil _) halone hlines
    | cons t more =>
      obtain ⟨us, hus, hlines⟩ := ih (q.advanceBy (lexeme ++ ['\n']))
      rw [hmore, Position.advanceBy_append] at hlines
      have hrest : rest ≠ [] := by
        rintro rfl
        rw [hts.eq_closing_of_nil] at hmore
        cases hmore
      have hnewline : AllBlank ['\n'] := List.forall_mem_singleton.2 (by decide)
      have hnext := halone.extend (delimiter_of_blank (by decide)) (fun _ => .inl rfl)
        (fun _ => hl.closed hrest) (['\n'].intercalate ((t :: more).map (·.value.toList)))
      refine ⟨.of kind lexeme q :: us, by simp [hus, Token.phrase, Token.of], ?_⟩
      rw [List.map_cons, List.intercalate_cons_cons, List.append_assoc]
      exact @Lexes.token q [] lexeme _ kind us (List.forall_mem_nil _) hnext
        (of_blanks hnewline hlines)

/-- The lexemes of a source, one on a line, are read as the same tokens. -/
theorem tokenize_lexemeLines (source : String) :
    (tokenize (lexemeLines source)).map Token.phrase = (tokenize source).map Token.phrase := by
  obtain ⟨us, hus, hlines⟩ := (lexes_tokenize source).exists_lines .first
  have htext : (lexemeLines source).toList =
      ['\n'].intercalate (((tokenize source).filter (·.kind ≠ .eof)).map (·.value.toList)) := by
    simp [lexemeLines, String.toList_intercalate, Function.comp_def]
  have hlexes := lexes_tokenize (lexemeLines source)
  rw [htext] at hlexes
  rw [← hus, hlexes.unique hlines]

/-- A number stops at the second point, and an open comment stays open. -/
example : lexemeLines "1.2.3/*" = "1.2\n.3\n/*" := by decide +kernel

end JsSyntax
