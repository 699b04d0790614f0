import JsSyntax.Token.Tokenize

/-! # The tokens of a text

`Lexes p cs ts`: the text `cs`, which starts at `p`, is written as blanks and lexemes whose tokens
are `ts`. The relation says what `tokenize` does without its cursor and its bound
(`lexes_tokenize`), and it leaves no choice (`Lexes.unique`). From it come the order of the tokens
in the text and the place of the closing token.
-/

set_option autoImplicit false

namespace JsSyntax

/-! ## Kinds -/

theorem wordKind_ne_eof (word : String) : wordKind word ≠ .eof := by
  unfold wordKind
  split
  · decide
  split
  · decide
  split <;> decide

theorem markKind?_ne_eof (lexeme : String) : markKind? lexeme ≠ some .eof := by
  unfold markKind?
  split
  · decide
  split <;> simp

namespace Lexeme

theorem mark?_ne_eof (cs : List Char) (n : Nat) : ∀ lexeme, mark? cs n ≠ some (.eof, lexeme) := by
  intro lexeme
  induction n with
  | zero => simp [mark?]
  | succ n ih =>
    rw [mark?]
    split
    · rename_i kind hkind
      intro h
      obtain ⟨rfl, -⟩ : kind = .eof ∧ _ := by simpa using h
      exact markKind?_ne_eof _ hkind
    · exact ih

/-- No lexeme is the closing token. -/
theorem scan_kind_ne_eof (cs : List Char) : (scan cs).1 ≠ .eof := by
  unfold scan
  split
  -- Comments, strings and templates.
  · exact TokenKind.noConfusion
  · exact TokenKind.noConfusion
  · exact TokenKind.noConfusion
  · exact TokenKind.noConfusion
  · exact TokenKind.noConfusion
  split
  · exact TokenKind.noConfusion
  · unfold wordOrMark
    split
    · exact wordKind_ne_eof _
    · cases h : mark? _ longestMark with
      | none => exact TokenKind.noConfusion
      | some found =>
        obtain ⟨kind, lexeme⟩ := found
        rintro rfl
        exact mark?_ne_eof _ _ _ h

end Lexeme

/-! ## Positions -/

namespace Position

theorem offset_le_advance (p : Position) (c : Char) : p.offset < (p.advance c).offset := by
  have := c.utf8Size_pos
  unfold advance
  split <;> simp <;> omega

theorem offset_le_advanceBy (p : Position) (cs : List Char) :
    p.offset ≤ (p.advanceBy cs).offset := by
  induction cs generalizing p with
  | nil => exact Nat.le_refl _
  | cons c cs ih => exact Nat.le_trans (Nat.le_of_lt (offset_le_advance p c)) (ih _)

theorem offset_lt_advanceBy (p : Position) {cs : List Char} (h : cs ≠ []) :
    p.offset < (p.advanceBy cs).offset := by
  obtain ⟨c, cs, rfl⟩ := List.exists_cons_of_ne_nil h
  exact Nat.lt_of_lt_of_le (offset_le_advance p c) (offset_le_advanceBy _ cs)

end Position

/-! ## The relation -/

/-- Every character is blank. -/
def AllBlank (cs : List Char) : Prop := ∀ c ∈ cs, isBlank c

/-- `lexeme` is the lexeme of the given kind that the text `lexeme ++ rest` starts with. -/
structure LexemeAt (kind : TokenKind) (lexeme rest : List Char) : Prop where
  scan : Lexeme.scan (lexeme ++ rest) = (kind, lexeme)
  starts : ∀ c ∈ lexeme.head?, ¬ isBlank c
  ne_nil : lexeme ≠ []

/-- The token of a lexeme that starts at `p`. -/
def Token.of (kind : TokenKind) (lexeme : List Char) (p : Position) : Token :=
  ⟨kind, String.ofList lexeme, ⟨p, p.advanceBy lexeme⟩⟩

inductive Lexes : Position → List Char → List Token → Prop where
  | stop {p : Position} {blanks : List Char} :
      AllBlank blanks → Lexes p blanks [.eof (p.advanceBy blanks)]
  | token {p : Position} {blanks lexeme rest : List Char} {kind : TokenKind} {ts : List Token} :
      AllBlank blanks → LexemeAt kind lexeme rest →
      Lexes (p.advanceBy (blanks ++ lexeme)) rest ts →
      Lexes p (blanks ++ (lexeme ++ rest)) (.of kind lexeme (p.advanceBy blanks) :: ts)

theorem LexemeAt.kind_ne_eof {kind : TokenKind} {lexeme rest : List Char}
    (h : LexemeAt kind lexeme rest) : kind ≠ .eof := by
  have := Lexeme.scan_kind_ne_eof (lexeme ++ rest)
  rwa [h.scan] at this

/-! ## Division of a text -/

theorem LexemeAt.head_not_blank {kind : TokenKind} {lexeme rest : List Char}
    (h : LexemeAt kind lexeme rest) : ∀ c ∈ (lexeme ++ rest).head?, ¬ isBlank c := by
  rw [List.head?_append, List.head?_eq_some_head h.ne_nil, Option.some_or,
    ← List.head?_eq_some_head h.ne_nil]
  exact h.starts

/-- The blanks that a text starts with are found by where they end. -/
theorem takeWhile_blank {blanks text : List Char} (hb : AllBlank blanks)
    (ht : ∀ c ∈ text.head?, ¬ isBlank c) : (blanks ++ text).takeWhile isBlank = blanks := by
  rw [List.takeWhile_append_of_pos hb]
  cases text with
  | nil => simp
  | cons c cs =>
    have := ht c (by simp)
    simp [this]

/-- Every text starts with blanks and then ends, or goes on with a lexeme. -/
theorem exists_blanks (cs : List Char) : AllBlank cs ∨ ∃ blanks kind lexeme rest,
    cs = blanks ++ (lexeme ++ rest) ∧ AllBlank blanks ∧ LexemeAt kind lexeme rest := by
  have hb : AllBlank (cs.takeWhile isBlank) := List.all_eq_true.1 List.all_takeWhile
  cases ht : cs.dropWhile isBlank with
  | nil =>
    refine .inl ?_
    rw [← List.takeWhile_append_dropWhile (p := isBlank) (l := cs), ht, List.append_nil]
    exact hb
  | cons c text =>
    obtain ⟨rest, hrest⟩ := Lexeme.scan_isPrefix (c :: text)
    have hne : (Lexeme.scan (c :: text)).2 ≠ [] := Lexeme.scan_ne_nil (by simp)
    refine .inr ⟨_, (Lexeme.scan (c :: text)).1, (Lexeme.scan (c :: text)).2, rest, ?_, hb, ?_⟩
    · rw [hrest, ← ht, List.takeWhile_append_dropWhile]
    · refine ⟨by rw [hrest], ?_, hne⟩
      have hhead : (Lexeme.scan (c :: text)).2.head? = some c := by
        have := congrArg List.head? hrest
        rwa [List.head?_append, List.head?_eq_some_head hne, Option.some_or,
          ← List.head?_eq_some_head hne] at this
      rw [hhead]
      rintro _ ⟨⟩
      have := List.head?_dropWhile_not isBlank cs
      rw [ht] at this
      simpa using this

/-! ## The token list of a source -/

namespace Cursor

theorem advanceBy_eq {c : Cursor} {u v : List Char} (h : c.rest = u ++ v) :
    (c.advanceBy u.length).rest = v ∧
      (c.advanceBy u.length).position = c.position.advanceBy u := by
  induction u generalizing c with
  | nil => exact ⟨h, rfl⟩
  | cons x u ih =>
    have hadv : c.advance = ⟨x :: c.past, u ++ v, c.position.advance x⟩ := by
      simp [advance, h]
    show (c.advance.advanceBy u.length).rest = v ∧ (c.advance.advanceBy u.length).position = _
    rw [hadv]
    exact ih rfl

theorem nextToken_of_blank {c : Cursor} (h : AllBlank c.rest) :
    c.nextToken.1 = .eof (c.position.advanceBy c.rest) := by
  have hw : (c.rest ++ []).takeWhile isBlank = c.rest := takeWhile_blank h (by simp)
  rw [List.append_nil] at hw
  obtain ⟨hrest, hpos⟩ := advanceBy_eq (List.append_nil c.rest).symm
  simp only [nextToken, advanceWhile, hw, hrest, hpos]

theorem nextToken_of_lexeme {c : Cursor} {blanks lexeme rest : List Char} {kind : TokenKind}
    (h : c.rest = blanks ++ (lexeme ++ rest)) (hb : AllBlank blanks)
    (hl : LexemeAt kind lexeme rest) :
    c.nextToken.1 = .of kind lexeme (c.position.advanceBy blanks) ∧
      c.nextToken.2.rest = rest ∧
      c.nextToken.2.position = c.position.advanceBy (blanks ++ lexeme) := by
  have hw : c.rest.takeWhile isBlank = blanks := h ▸ takeWhile_blank hb hl.head_not_blank
  obtain ⟨hrest, hpos⟩ := advanceBy_eq h
  obtain ⟨hrest', hpos'⟩ := advanceBy_eq hrest
  obtain ⟨x, xs, hx⟩ := List.exists_cons_of_ne_nil (List.append_ne_nil_of_left_ne_nil hl.ne_nil rest)
  have hnext : c.nextToken = (.of kind lexeme (c.position.advanceBy blanks),
      (c.advanceBy blanks.length).advanceBy lexeme.length) := by
    simp only [nextToken, advanceWhile, hw]
    rw [hrest, hx]
    simp only [← hx, hl.scan, hpos, hpos', Token.of]
  rw [hnext]
  exact ⟨rfl, hrest', by rw [hpos', hpos, Position.advanceBy_append]⟩

/-- The bound is never reached: there are at most as many tokens as characters. -/
theorem lexes_tokens {fuel : Nat} {c : Cursor} (hf : c.rest.length ≤ fuel) :
    Lexes c.position c.rest (c.tokens fuel) := by
  induction fuel generalizing c with
  | zero =>
    have hb : AllBlank c.rest := by
      rw [List.length_eq_zero_iff.1 (Nat.le_zero.1 hf)]
      simp [AllBlank]
    rw [tokens, nextToken_of_blank hb]
    exact .stop hb
  | succ fuel ih =>
    obtain hb | ⟨blanks, kind, lexeme, rest, h, hb, hl⟩ := exists_blanks c.rest
    · simp only [tokens, nextToken_of_blank hb, Token.eof, if_true]
      exact .stop hb
    · obtain ⟨htoken, hrest, hpos⟩ := nextToken_of_lexeme h hb hl
      have hlen : c.nextToken.2.rest.length ≤ fuel := by
        have := List.length_pos_iff.2 hl.ne_nil
        rw [h, List.length_append, List.length_append] at hf
        rw [hrest]
        omega
      have hkind : c.nextToken.1.kind ≠ .eof := htoken ▸ hl.kind_ne_eof
      have := ih hlen
      rw [hrest, hpos] at this
      rw [tokens]
      simp only [hkind, if_false]
      rw [htoken, h]
      exact .token hb hl this

end Cursor

theorem lexes_tokenize (source : String) : Lexes .first source.toList (tokenize source) :=
  Cursor.lexes_tokens (c := .ofString source) (Nat.le_of_eq source.length_toList)

namespace Lexes

variable {p : Position} {cs : List Char} {ts : List Token}

theorem unique {ts' : List Token} (h : Lexes p cs ts) (h' : Lexes p cs ts') : ts = ts' := by
  induction h generalizing ts' with
  | stop hb =>
    cases h' with
    | stop _ => rfl
    | @token _ _ lexeme rest kind _ _ hl _ =>
      obtain ⟨x, xs, hx⟩ := List.exists_cons_of_ne_nil hl.ne_nil
      exact absurd (hb x (by simp [hx])) (hl.starts x (by simp [hx]))
  | @token p blanks lexeme rest kind ts hb hl _ ih =>
    generalize hcs : blanks ++ (lexeme ++ rest) = cs at h'
    cases h' with
    | stop hb' =>
      obtain ⟨x, xs, hx⟩ := List.exists_cons_of_ne_nil hl.ne_nil
      exact absurd (hb' x (by simp [← hcs, hx])) (hl.starts x (by simp [hx]))
    | @token _ blanks' lexeme' rest' kind' ts' hb' hl' hts' =>
      obtain rfl : blanks = blanks' := by
        rw [← takeWhile_blank hb hl.head_not_blank, hcs, takeWhile_blank hb' hl'.head_not_blank]
      have htext := List.append_cancel_left hcs
      obtain ⟨rfl, rfl⟩ : kind = kind' ∧ lexeme = lexeme' := by
        have := hl.scan
        rw [htext, hl'.scan] at this
        simpa [eq_comm] using this
      obtain rfl := List.append_cancel_left htext
      rw [ih hts']

/-! ## The closing token -/

/-- One token closes the list, where the text ends, and is the only one of its kind. -/
theorem closing (h : Lexes p cs ts) :
    ∃ us, ts = us ++ [.eof (p.advanceBy cs)] ∧ ∀ t ∈ us, t.kind ≠ .eof := by
  induction h with
  | stop _ => exact ⟨[], rfl, by simp⟩
  | @token p blanks lexeme rest kind _ _ hl _ ih =>
    obtain ⟨us, rfl, hus⟩ := ih
    refine ⟨.of kind lexeme (p.advanceBy blanks) :: us, by simp, ?_⟩
    rintro t (_ | ⟨_, ht⟩)
    · exact hl.kind_ne_eof
    · exact hus t ht

/-! ## The order of the tokens -/

theorem le_start (h : Lexes p cs ts) : ∀ t ∈ ts, p.offset ≤ t.span.start.offset := by
  induction h with
  | @stop p blanks _ =>
    rintro t (_ | ⟨_, ht⟩)
    · exact p.offset_le_advanceBy blanks
    · cases ht
  | @token p blanks lexeme _ _ _ _ _ _ ih =>
    rintro t (_ | ⟨_, ht⟩)
    · exact p.offset_le_advanceBy blanks
    · exact Nat.le_trans (p.offset_le_advanceBy _) (ih t ht)

/-- A token ends before the next one starts. -/
theorem pairwise (h : Lexes p cs ts) :
    ts.Pairwise fun t t' => t.span.stop.offset ≤ t'.span.start.offset := by
  induction h with
  | stop _ => exact List.pairwise_singleton ..
  | @token p blanks lexeme _ _ _ _ _ hts ih =>
    refine List.pairwise_cons.2 ⟨?_, ih⟩
    intro t ht
    have := hts.le_start t ht
    rwa [Position.advanceBy_append] at this

/-- Only the closing token covers nothing. -/
theorem start_lt_stop (h : Lexes p cs ts) :
    ∀ t ∈ ts, t.kind ≠ .eof → t.span.start.offset < t.span.stop.offset := by
  induction h with
  | stop _ =>
    rintro t (_ | ⟨_, ht⟩) hk
    · exact absurd rfl hk
    · cases ht
  | token _ hl _ ih =>
    rintro t (_ | ⟨_, ht⟩) hk
    · exact Position.offset_lt_advanceBy _ hl.ne_nil
    · exact ih t ht hk

end Lexes

end JsSyntax
