import JsSyntax.Proofs.Token.Munch

/-! # Texts cut short and texts put together

The tokens of a text that is cut short behind one of them are the tokens up to there
(`Lexes.take`), and the tokens of two texts with a line break or a delimiter between them are those
of the first and then those of the second, unless the first text ends inside a token that has not
been closed (`Lexes.append`, `Lexes.append_delimited`). Positions have no say in how a text is
divided (`Lexes.move`).
-/

set_option autoImplicit false

namespace JsSyntax

/-! ## Blanks and semicolons go on with no token -/

theorem toNat_of_isDigit {c : Char} (h : c.isDigit) : 48 ≤ c.toNat ∧ c.toNat ≤ 57 := by
  simpa [Char.isDigit, UInt32.le_iff_toNat_le] using h

theorem toNat_of_isAlpha {c : Char} (h : c.isAlpha) :
    65 ≤ c.toNat ∧ c.toNat ≤ 90 ∨ 97 ≤ c.toNat ∧ c.toNat ≤ 122 := by
  unfold Char.isAlpha Char.isUpper Char.isLower at h
  simpa [UInt32.le_iff_toNat_le] using h

theorem not_isBlank_of_isWordPart {c : Char} (h : isWordPart c) : ¬ isBlank c := by
  intro hb
  obtain ⟨run, hrun, hlo, hhi⟩ := (CharTable.holds_iff blankTable_sorted c.toNat).1 hb
  have hrange : 48 ≤ c.toNat ∧ c.toNat ≤ 122 := by
    simp only [isWordPart, Char.isAlphanum, Bool.or_eq_true, beq_iff_eq] at h
    rcases h with (h | h) | rfl
    · have := toNat_of_isAlpha h
      omega
    · have := toNat_of_isDigit h
      omega
    · decide
  simp only [blankTable, List.mem_cons, List.not_mem_nil, or_false] at hrun
  rcases hrun with rfl | rfl | rfl | rfl | rfl | rfl | rfl | rfl | rfl | rfl <;>
    simp only at hlo hhi <;> omega

theorem isWordPart_of_isDigit {c : Char} (h : c.isDigit) : isWordPart c := by
  simp [isWordPart, Char.isAlphanum, h]

/-- A character that goes on with no lexeme, but for what has not been closed and line comments. -/
structure Delimiter (c : Char) : Prop where
  not_part : ¬ isWordPart c
  not_mem : c ∉ ['/', '*', '.', '+', '-', '\x22', '\x27', '\x60']
  marks : Avoids Mark c

theorem mark_avoids {c : Char} (h : ∀ m ∈ operators ++ punctuationMarks, c ∉ m.toList.tail) :
    Avoids Mark c := by
  intro u v hm
  have hmem := h (String.ofList (u ++ c :: v)) (List.mem_append.2 hm)
  rw [String.toList_ofList] at hmem
  cases u with
  | nil => rfl
  | cons d u => exact absurd (by simp) hmem

theorem delimiter_of_blank {c : Char} (hc : isBlank c) : Delimiter c := by
  have hapart : ∀ {w : List Char}, ¬ w.any isBlank → c ∉ w :=
    fun hw hmem => hw (List.any_eq_true.2 ⟨c, hmem, hc⟩)
  have hmarks : ∀ m ∈ operators ++ punctuationMarks, ¬ m.toList.tail.any isBlank := by
    decide +kernel
  exact ⟨fun h => not_isBlank_of_isWordPart h hc, hapart (by decide),
    mark_avoids fun m hm => hapart (hmarks m hm)⟩

theorem delimiter_semicolon : Delimiter ';' :=
  ⟨by decide, by decide, mark_avoids (by decide +kernel)⟩

section

variable {c : Char} (hc : Delimiter c)
include hc

theorem Delimiter.not_isDigit : ¬ c.isDigit := fun h => hc.not_part (isWordPart_of_isDigit h)

theorem numeral_avoids (point exponent sign : Bool) : Avoids (Numeral point exponent sign) c := by
  refine .of_not_mem fun u hu hmem => ?_
  rcases hu.chars c hmem with h | rfl | h | h
  · exact hc.not_isDigit h
  · exact hc.not_mem (by decide)
  · simp only [isExponentMark, Bool.or_eq_true, beq_iff_eq] at h
    rcases h with rfl | rfl <;> exact hc.not_part (by decide)
  · simp only [isSign, Bool.or_eq_true, beq_iff_eq] at h
    rcases h with rfl | rfl <;> exact hc.not_mem (by decide)

theorem numberStart_avoids : Avoids NumberStart c := by
  refine .of_not_mem ?_
  rintro _ ⟨d, hd, rfl | rfl⟩ hmem
  · obtain rfl := List.mem_singleton.1 hmem
    exact hc.not_isDigit hd
  · rcases List.mem_cons.1 hmem with rfl | hmem
    · exact hc.not_mem (by decide)
    · obtain rfl := List.mem_singleton.1 hmem
      exact hc.not_isDigit hd

theorem word_avoids : Avoids Word c := .of_not_mem fun _ hu hmem => hc.not_part (hu c hmem)

theorem eq_avoids {w : List Char} (hw : w ⊆ ['/', '*', '.', '+', '-', '\x22', '\x27', '\x60']) :
    Avoids (fun u => u = w) c := by
  refine .of_not_mem ?_
  rintro _ rfl hmem
  exact hc.not_mem (hw hmem)

/-- Behind a text with a character in front, a delimiter starts no rule. -/
theorem applies_of_delimiter {text more : List Char} (hne : text ≠ []) :
    ∀ rule ∈ lexicalRules, rule.Applies (text ++ c :: more) → rule.Applies text := by
  have key : ∀ {rule : Rule}, Avoids rule.beginning c → rule.Applies (text ++ c :: more) →
      rule.Applies text := fun ha ⟨u, hu, hp⟩ => ⟨u, hu, ha.isPrefix hne hu hp⟩
  simp only [lexicalRules, List.forall_mem_cons]
  refine ⟨key ?_, key ?_, key ?_, key ?_, key ?_, key ?_, key ?_, key ?_, fun _ => ?_, nofun⟩
  · exact eq_avoids hc (by decide)
  · exact eq_avoids hc (by decide)
  · exact numberStart_avoids hc
  · exact eq_avoids hc (by decide)
  · exact eq_avoids hc (by decide)
  · exact eq_avoids hc (by decide)
  · refine .of_not_mem ?_
    rintro _ ⟨d, hd, rfl⟩ hmem
    obtain rfl := List.mem_singleton.1 hmem
    exact hc.not_part (Lexeme.isWordPart_of_isWordStart hd)
  · exact hc.marks
  · obtain ⟨d, text, rfl⟩ := List.exists_cons_of_ne_nil hne
    exact ⟨[d], ⟨d, rfl⟩, ⟨text, rfl⟩⟩

end

/-! ## Tokens that are not closed -/

/-- A block comment, a string or a template whose end is missing. -/
def Unclosed : TokenKind → List Char → Prop
  | .comment, v => ['/', '*'] <+: v ∧ ¬ BlockComment v
  | .string, v => ¬ Quoted '\x22' v ∧ ¬ Quoted '\x27' v
  | .templateString, v => ¬ Quoted '\x60' v
  | _, _ => False

theorem shortestOrAll_mem {L : Language} {text v : List Char} (h : ShortestOrAll L text v)
    (hclosed : v = text → ¬ ¬ L v) : L v := by
  rcases h with h | ⟨heq, -⟩
  · exact h.mem
  · exact Classical.not_not.1 (hclosed heq)

theorem not_quoted_of_head {quote q : Char} {v : List Char} (hne : quote ≠ q)
    (hv : Begins (fun u => u = [quote]) v) : ¬ Quoted q v := by
  rintro ⟨y, rfl, -⟩
  obtain ⟨-, rfl, hp⟩ := hv
  exact hne (List.cons_prefix_cons.1 hp).1

/-- A lexeme ends at a delimiter, but a line comment only at the end of the line. -/
theorem takes_of_delimiter {c : Char} {text more v : List Char} {kind : TokenKind}
    (hc : Delimiter c) (hne : text ≠ []) (hcomment : kind = .comment → c = '\n' ∨ v ≠ text)
    (hclosed : v = text → ¬ Unclosed kind v) :
    ∀ rule ∈ lexicalRules, rule.Applies text → rule.Takes text v → kind = rule.kind v →
      rule.Takes (text ++ c :: more) v := by
  have hquoted : ∀ {kind' : TokenKind} {quote : Char}, kind = kind' →
      (Begins (fun u => u = [quote]) v → ¬ Unclosed kind' v → ¬ ¬ Quoted quote v) →
      (quotedRule kind' quote).Applies text → (quotedRule kind' quote).Takes text v →
      (quotedRule kind' quote).Takes (text ++ c :: more) v := by
    rintro _ quote rfl hopen ha ht
    exact ShortestOrAll.extend ht (shortestOrAll_mem ht fun heq =>
      hopen ((quotedRule kind quote).covers ha ht) (hclosed heq))
  simp only [lexicalRules, List.forall_mem_cons]
  refine ⟨?_, ?_, ?_, ?_, ?_, ?_, ?_, ?_, ?_, nofun⟩
  · rintro - ht rfl
    rcases hcomment rfl with rfl | hv
    · exact Longest.extend ht hne (.of_not_mem fun _ hu => hu)
    · exact Longest.extend_of_ne (fun hw hp hmem => hw (hp.subset hmem)) ht hv
  · rintro ha ht rfl
    refine ShortestOrAll.extend ht (shortestOrAll_mem ht fun heq hnot => hclosed heq ⟨?_, hnot⟩)
    obtain ⟨_, rfl, hp⟩ := blockCommentRule.covers ha ht
    exact hp
  · exact fun _ ht _ => Longest.extend ht hne (numeral_avoids hc true true false)
  · exact fun ha ht hk =>
      hquoted hk (fun hv h hq => h ⟨hq, not_quoted_of_head (by decide) hv⟩) ha ht
  · exact fun ha ht hk =>
      hquoted hk (fun hv h hq => h ⟨not_quoted_of_head (by decide) hv, hq⟩) ha ht
  · exact fun ha ht hk => hquoted hk (fun _ h hq => h hq) ha ht
  · exact fun _ ht _ => Longest.extend ht hne (word_avoids hc)
  · exact fun _ ht _ => Longest.extend ht hne hc.marks
  · intro ha ht _
    refine ShortestOrAll.extend ht (shortestOrAll_mem ht fun heq _ => ?_)
    rcases ht with ht | ⟨-, hnot⟩
    · exact absurd ht.mem ‹_›
    · exact hnot ha

/-- What a rule takes in front of some text is closed. -/
theorem not_unclosed_of_takes {text v : List Char} {kind : TokenKind} (hne : v ≠ text) :
    ∀ rule ∈ lexicalRules, rule.Applies text → rule.Takes text v → kind = rule.kind v →
      ¬ Unclosed kind v := by
  have hmem : ∀ {L : Language}, ShortestOrAll L text v → L v :=
    fun h => shortestOrAll_mem h fun heq => absurd heq hne
  simp only [lexicalRules, List.forall_mem_cons]
  refine ⟨?_, ?_, ?_, ?_, ?_, ?_, ?_, ?_, ?_, nofun⟩
  · rintro ha ht rfl ⟨hopen, -⟩
    obtain ⟨_, rfl, hp⟩ := lineCommentRule.covers ha ht
    have := (List.prefix_of_prefix_length_le hopen hp (Nat.le_refl _)).eq_of_length rfl
    exact absurd this (by decide)
  · rintro - ht rfl ⟨-, hopen⟩
    exact hopen (hmem ht)
  · rintro - - rfl
    exact not_false
  · rintro - ht rfl ⟨hopen, -⟩
    exact hopen (hmem ht)
  · rintro - ht rfl ⟨-, hopen⟩
    exact hopen (hmem ht)
  · rintro - ht rfl hopen
    exact hopen (hmem ht)
  · rintro - - rfl
    show ¬ Unclosed (wordKindOf v) v
    unfold wordKindOf
    split_ifs <;> exact not_false
  · rintro - - rfl
    show ¬ Unclosed (markKindOf v) v
    unfold markKindOf
    split_ifs <;> exact not_false
  · rintro - - rfl
    exact not_false

namespace LexemeAt

variable {kind : TokenKind} {lexeme rest : List Char}

/-- A lexeme with some text behind it is closed. -/
theorem closed (h : LexemeAt kind lexeme rest) (hne : rest ≠ []) : ¬ Unclosed kind lexeme := by
  obtain ⟨rule, hr, ha, ht, hk⟩ := h.first.exists_rule
  exact not_unclosed_of_takes (by simpa using hne) rule hr ha ht hk

/-- The text behind a lexeme may be cut short. -/
theorem truncate {rest' : List Char} (h : LexemeAt kind lexeme rest) (hp : rest' <+: rest) :
    LexemeAt kind lexeme rest' :=
  .of_first (h.first.truncate hp) h.ne_nil h.starts

/-- The text behind a lexeme may go on with a delimiter. -/
theorem extend {c : Char} (h : LexemeAt kind lexeme rest) (hc : Delimiter c)
    (hcomment : kind = .comment → c = '\n' ∨ rest ≠ [])
    (hclosed : rest = [] → ¬ Unclosed kind lexeme) (more : List Char) :
    LexemeAt kind lexeme (rest ++ c :: more) := by
  have hne : lexeme ++ rest ≠ [] := List.append_ne_nil_of_left_ne_nil h.ne_nil rest
  have heq : lexeme = lexeme ++ rest ↔ rest = [] := by simp
  have hfirst : First (lexeme ++ rest ++ c :: more) kind lexeme lexicalRules :=
    h.first.extend (applies_of_delimiter hc hne) (takes_of_delimiter hc hne
      (fun hk => (hcomment hk).imp_right (mt heq.1)) (fun h => hclosed (heq.1 h)))
  rw [List.append_assoc] at hfirst
  exact .of_first hfirst h.ne_nil h.starts

end LexemeAt

/-! ## Texts put together -/

namespace Lexes

variable {p : Position} {cs : List Char} {ts us : List Token}

theorem ne_nil (h : Lexes p cs ts) : ts ≠ [] := by
  cases h <;> nofun

theorem of_blanks {blanks : List Char} (hb : AllBlank blanks)
    (h : Lexes (p.advanceBy blanks) cs ts) : Lexes p (blanks ++ cs) ts := by
  have happ : ∀ {blanks'}, AllBlank blanks' → AllBlank (blanks ++ blanks') := by
    intro blanks' hb' c hc
    exact (List.mem_append.1 hc).elim (hb c) (hb' c)
  cases h with
  | stop hb' =>
    rw [← Position.advanceBy_append]
    exact .stop (happ hb')
  | @token _ blanks' lexeme rest kind ts hb' hl hts =>
    rw [← Position.advanceBy_append, ← List.append_assoc]
    rw [← Position.advanceBy_append, ← List.append_assoc] at hts
    exact .token (happ hb') hl hts

/-- Behind the last token of a text there are blanks only. -/
theorem eq_closing_of_nil (h : Lexes p [] ts) : ts = [.eof p] := by
  generalize hcs : ([] : List Char) = cs at h
  cases h with
  | stop _ => rw [← hcs, Position.advanceBy_nil]
  | token _ hl _ =>
    have := hl.ne_nil
    simp_all

/-- A token with another one behind it is closed. -/
theorem closed (h : Lexes p cs ts) :
    ts.Pairwise fun t t' => t'.kind ≠ .eof → ¬ Unclosed t.kind t.value.toList := by
  induction h with
  | stop _ => exact List.pairwise_singleton ..
  | @token p blanks lexeme rest kind ts _ hl hts ih =>
    refine List.pairwise_cons.2 ⟨fun t ht hk => ?_, ih⟩
    have hrest : rest ≠ [] := by
      rintro rfl
      rw [hts.eq_closing_of_nil, List.mem_singleton] at ht
      exact hk (ht ▸ rfl)
    simpa [Token.of] using hl.closed hrest

/-- The tokens of a text that goes on with a delimiter. -/
theorem append_delimited {c : Char} {bs : List Char} (hc : Delimiter c) (h : Lexes p cs ts)
    (hcomment : ∀ t ∈ ts.dropLast.getLast?, t.kind = .comment → c = '\n')
    (hclosed : ∀ t ∈ ts.dropLast.getLast?, ¬ Unclosed t.kind t.value.toList)
    (hb : Lexes (p.advanceBy cs) (c :: bs) us) : Lexes p (cs ++ c :: bs) (ts.dropLast ++ us) := by
  induction h with
  | @stop p blanks hblanks => exact of_blanks hblanks hb
  | @token p blanks lexeme rest kind ts hblanks hl hts ih =>
    have htext : blanks ++ (lexeme ++ rest) ++ c :: bs =
        blanks ++ (lexeme ++ (rest ++ c :: bs)) := by simp only [List.append_assoc]
    -- If nothing is behind the lexeme, its token is the last one.
    have hlast : rest = [] → Token.of kind lexeme (p.advanceBy blanks) ∈
        (Token.of kind lexeme (p.advanceBy blanks) :: ts).dropLast.getLast? := by
      rintro rfl
      obtain rfl := hts.eq_closing_of_nil
      rfl
    have hlater : ∀ t ∈ ts.dropLast.getLast?,
        t ∈ (Token.of kind lexeme (p.advanceBy blanks) :: ts).dropLast.getLast? := by
      intro t ht
      rw [List.dropLast_cons_of_ne_nil hts.ne_nil]
      cases hus : ts.dropLast with
      | nil => simp [hus] at ht
      | cons t' us' => rwa [List.getLast?_cons_cons, ← hus]
    have hlexeme := hl.extend hc
      (fun hk => or_iff_not_imp_right.2 fun hrest =>
        hcomment _ (hlast (Classical.not_not.1 hrest)) hk)
      (fun hrest => by simpa [Token.of] using hclosed _ (hlast hrest)) bs
    rw [htext, List.dropLast_cons_of_ne_nil hts.ne_nil, List.cons_append]
    refine .token hblanks hlexeme (ih (fun t ht => hcomment t (hlater t ht))
      (fun t ht => hclosed t (hlater t ht)) ?_)
    rwa [← Position.advanceBy_append, List.append_assoc]

/-- The tokens of two texts with a line break between them. -/
theorem append {bs : List Char} (h : Lexes p cs ts)
    (hclosed : ∀ t ∈ ts.dropLast.getLast?, ¬ Unclosed t.kind t.value.toList)
    (hb : Lexes (p.advanceBy (cs ++ ['\n'])) bs us) :
    Lexes p (cs ++ '\n' :: bs) (ts.dropLast ++ us) := by
  rw [Position.advanceBy_append] at hb
  exact h.append_delimited (delimiter_of_blank (by decide)) (fun _ _ _ => rfl) hclosed
    (of_blanks (List.forall_mem_singleton.2 (by decide)) hb)

/-! ## Texts cut short -/

/-- The text through the last of some tokens, and the text behind it. -/
theorem take (h : Lexes p cs (us ++ ts)) (hts : ts ≠ []) : ∃ w rest, cs = w ++ rest ∧
    Lexes p w (us ++ [.eof (p.advanceBy w)]) ∧ Lexes (p.advanceBy w) rest ts ∧
    (us.getLast?.map (·.span.stop)).getD p = p.advanceBy w := by
  induction us generalizing p cs with
  | nil => exact ⟨[], cs, rfl, .stop nofun, h, rfl⟩
  | cons t us ih =>
    generalize hall : t :: us ++ ts = all at h
    cases h with
    | stop _ =>
      obtain ⟨-, hnil⟩ : _ ∧ us ++ ts = [] := by simpa using hall
      exact absurd (List.append_eq_nil_iff.1 hnil).2 hts
    | @token _ blanks lexeme rest kind ts' hblanks hl hts' =>
      obtain ⟨rfl, rfl⟩ := List.cons.inj hall
      obtain ⟨w, rest, rfl, hw, hrest, hlast⟩ := ih hts'
      refine ⟨blanks ++ (lexeme ++ w), rest, by simp only [List.append_assoc], ?_, ?_, ?_⟩
      · have := Lexes.token hblanks (hl.truncate (List.prefix_append w rest)) hw
        simpa only [Position.advanceBy_append, List.cons_append] using this
      · simpa only [Position.advanceBy_append] using hrest
      · simp only [Position.advanceBy_append] at hlast ⊢
        rw [← hlast, List.getLast?_cons]
        cases us.getLast? <;> rfl

/-- The blanks in front of a token. -/
theorem drop_blanks {t : Token} (h : Lexes p cs (t :: ts)) (ht : t.kind ≠ .eof) :
    ∃ blanks text, cs = blanks ++ text ∧ t.span.start = p.advanceBy blanks ∧
      Lexes t.span.start text (t :: ts) := by
  cases h with
  | stop _ => exact absurd rfl ht
  | @token _ blanks lexeme rest kind _ hblanks hl hts =>
    refine ⟨blanks, lexeme ++ rest, rfl, rfl, ?_⟩
    rw [Position.advanceBy_append] at hts
    exact @Lexes.token _ [] _ _ _ _ nofun hl hts

end Lexes

/-! ## Texts at another place -/

def Span.move (f : Position → Position) (s : Span) : Span := ⟨f s.start, f s.stop⟩

def Token.move (f : Position → Position) (t : Token) : Token := { t with span := t.span.move f }

/-- Passing a text from `p` on is the same before and after the move. -/
def MovesText (f : Position → Position) (p : Position) : Prop :=
  ∀ cs, f (p.advanceBy cs) = (f p).advanceBy cs

theorem Position.line_advanceBy (p : Position) (cs : List Char) :
    (p.advanceBy cs).line = p.line + cs.count '\n' := by
  induction cs generalizing p with
  | nil => rfl
  | cons c cs ih =>
    rw [advanceBy_cons, ih, List.count_cons]
    unfold advance
    split
    · next h => simp [h]; omega
    · next h => simp [h]

theorem Lexes.move {f : Position → Position} {p : Position} {cs : List Char} {ts : List Token}
    (h : Lexes p cs ts) (hf : MovesText f p) : Lexes (f p) cs (ts.map (Token.move f)) := by
  induction h with
  | @stop p blanks hb =>
    have : Token.move f (.eof (p.advanceBy blanks)) = .eof ((f p).advanceBy blanks) := by
      rw [← hf blanks]
      rfl
    rw [List.map_singleton, this]
    exact .stop hb
  | @token p blanks lexeme rest kind ts hb hl _ ih =>
    have : Token.move f (.of kind lexeme (p.advanceBy blanks)) =
        .of kind lexeme ((f p).advanceBy blanks) := by
      simp only [Token.move, Token.of, Span.move, ← Position.advanceBy_append]
      rw [hf blanks, hf (blanks ++ lexeme)]
    rw [List.map_cons, this]
    refine .token hb hl ?_
    rw [← hf (blanks ++ lexeme)]
    refine ih fun cs => ?_
    rw [← Position.advanceBy_append, hf, hf, Position.advanceBy_append]

end JsSyntax
