import JsSyntax.Proofs.Layout
import JsSyntax.Proofs.RoundTrip.Tree
import JsSyntax.Proofs.Token.Splice

/-! # The tokens of a written text

A token whose text is scanned as a token of its kind when nothing is behind it is found again in
front of a blank or a mark (`HasPhrases.token`), as long as it is no comment and is closed. A text
with blanks between such tokens has these tokens (`rest_spaced`). All tokens of a tree are of that
kind (`Tree.lone`).
-/

set_option autoImplicit false

namespace JsSyntax

/-! ## Texts by the phrases of their tokens -/

/-- Wherever the text stands, its tokens are of these kinds and texts. -/
def HasPhrases (cs : List Char) (ps : List (TokenKind × String)) : Prop :=
  ∀ p, ∃ us, Lexes p cs us ∧ us.map Token.phrase = ps ++ [(.eof, "")]

namespace HasPhrases

variable {cs lexeme : List Char} {kind : TokenKind} {ps : List (TokenKind × String)}

theorem nil : HasPhrases [] [] := fun _ => ⟨_, .stop (List.forall_mem_nil _), rfl⟩

theorem blank {c : Char} (hc : isBlank c) (h : HasPhrases cs ps) : HasPhrases (c :: cs) ps := by
  intro p
  obtain ⟨us, hlex, hus⟩ := h (p.advanceBy [c])
  exact ⟨us, .of_blanks (List.forall_mem_singleton.2 hc) hlex, hus⟩

theorem cons (hl : LexemeAt kind lexeme cs) (h : HasPhrases cs ps) :
    HasPhrases (lexeme ++ cs) ((kind, String.ofList lexeme) :: ps) := by
  intro p
  obtain ⟨us, hlex, hus⟩ := h (p.advanceBy lexeme)
  have hlex' : Lexes p ([] ++ (lexeme ++ cs)) _ := .token (List.forall_mem_nil _) hl hlex
  refine ⟨_, hlex', ?_⟩
  rw [List.map_cons, hus]
  rfl

end HasPhrases

/-! ## Tokens that stand alone -/

/-- The text is one token of the kind, and goes on being one when a blank follows. -/
structure Token.Lone (t : Token) : Prop where
  lexeme : LexemeAt t.kind t.value.toList []
  ne_comment : t.kind ≠ .comment
  closed : ¬ Unclosed t.kind t.value.toList

/-- The text starts with a delimiter, if it is not empty. -/
def Delimited (cs : List Char) : Prop := ∀ c ∈ cs.head?, Delimiter c

theorem Delimited.nil : Delimited [] := nofun

theorem Delimited.cons {c : Char} {cs : List Char} (hc : Delimiter c) : Delimited (c :: cs) := by
  rintro _ ⟨⟩
  exact hc

theorem Token.Lone.lexemeAt {t : Token} (h : t.Lone) {cs : List Char} (hcs : Delimited cs) :
    LexemeAt t.kind t.value.toList cs := by
  cases cs with
  | nil => exact h.lexeme
  | cons c cs =>
    exact h.lexeme.extend (hcs c rfl) (fun hk => absurd hk h.ne_comment) (fun _ => h.closed) cs

theorem HasPhrases.token {t : Token} {cs : List Char} {ps : List (TokenKind × String)}
    (ht : t.Lone) (hcs : Delimited cs) (h : HasPhrases cs ps) :
    HasPhrases (t.value.toList ++ cs) (t.phrase :: ps) := by
  have hcons := HasPhrases.cons (ht.lexemeAt hcs) h
  rwa [String.ofList_toList] at hcons

/-- The parser leaves out comments only. -/
theorem HasPhrases.rest {source : String} {ts : List Token}
    (h : HasPhrases source.toList (ts.map Token.phrase)) (hts : ∀ t ∈ ts, t.kind ≠ .comment) :
    (Parse.startOf source).rest.map Token.phrase = ts.map Token.phrase := by
  obtain ⟨us, hlex, hus⟩ := h .first
  obtain ⟨vs, rfl, hvs⟩ := hlex.closing
  rw [List.map_append] at hus
  have hphrases : vs.map Token.phrase = ts.map Token.phrase := List.append_inj_left' hus rfl
  have hall : ∀ x ∈ vs.map Token.phrase, x.1 ≠ .comment ∧ x.1 ≠ .eof := by
    intro x hx
    obtain ⟨t, ht, rfl⟩ := List.mem_map.1 hx
    obtain ⟨t', ht', heq⟩ := List.mem_map.1 (hphrases ▸ hx)
    have hkind : t'.kind = t.kind := congrArg Prod.fst heq
    exact ⟨fun hcomment => hts t' ht' (hkind.trans hcomment), hvs t ht⟩
  rw [Parse.rest_phrases, (lexes_tokenize source).unique hlex, List.map_append, List.filter_append,
    List.filter_eq_self.2 fun x hx => decide_eq_true (hall x hx), hphrases]
  simp [Token.phrase, Token.eof]

/-! ## Blanks between any two tokens -/

/-- The characters of the tokens, with a blank between any two. -/
def spacedChars (ts : List Token) : List Char := [' '].intercalate (ts.map (·.value.toList))

theorem toList_spaced (ts : List Token) : (spaced ts).toList = spacedChars ts := by
  rw [spaced, String.toList_intercalate, spacedChars, List.map_map]
  rfl

theorem spacedChars_cons (t t' : Token) (ts : List Token) :
    spacedChars (t :: t' :: ts) = t.value.toList ++ ' ' :: spacedChars (t' :: ts) := by
  simp [spacedChars, List.intercalate]

theorem hasPhrases_spaced {ts : List Token} (h : ∀ t ∈ ts, t.Lone) :
    HasPhrases (spacedChars ts) (ts.map Token.phrase) := by
  induction ts with
  | nil => exact .nil
  | cons t ts ih =>
    obtain ⟨ht, hts⟩ := List.forall_mem_cons.1 h
    cases ts with
    | nil =>
      have hlast : HasPhrases (t.value.toList ++ []) [t.phrase] := .token ht .nil .nil
      simpa [spacedChars] using hlast
    | cons t' ts =>
      rw [spacedChars_cons]
      exact .token ht (.cons (delimiter_of_blank (by decide))) (.blank (by decide) (ih hts))

theorem rest_spaced {ts : List Token} (h : ∀ t ∈ ts, t.Lone) :
    (Parse.startOf (spaced ts)).rest.map Token.phrase = ts.map Token.phrase := by
  refine HasPhrases.rest ?_ fun t ht => (h t ht).ne_comment
  rw [toList_spaced]
  exact hasPhrases_spaced h

/-! ## The tokens of a tree -/

/-- Tokens that cannot be open, by what they are scanned as. -/
theorem Token.lone_of_scan {t : Token}
    (h : Lexeme.scan t.value.toList = (t.kind, t.value.toList) ∧
      ¬ t.value.toList.head?.any isBlank ∧ t.value.toList ≠ [] ∧
      t.kind ∉ [.comment, .string, .templateString]) : t.Lone := by
  obtain ⟨hscan, hstarts, hne, hkind⟩ := h
  simp only [List.mem_cons, List.not_mem_nil, or_false, not_or] at hkind
  refine ⟨⟨by rw [List.append_nil]; exact hscan, ?_, hne⟩, hkind.1, ?_⟩
  · intro c hc hb
    exact hstarts (by rw [Option.mem_def.1 hc]; exact hb)
  · cases hk : t.kind <;> simp_all [Unclosed]

theorem not_isDigit_of_isWordStart {c : Char} (h : isWordStart c) : c.isDigit = false := by
  simp only [isWordStart, Bool.or_eq_true, beq_iff_eq] at h
  rcases h with h | rfl
  · refine Bool.eq_false_iff.2 fun hdigit => ?_
    have := toNat_of_isAlpha h
    have := toNat_of_isDigit hdigit
    omega
  · decide

namespace MemberName

variable (name : MemberName)

theorem exists_cons : ∃ c cs, name.text.toList = c :: cs ∧ isWordStart c := by
  have hstarts := name.starts
  cases h : name.text.toList with
  | nil => simp [h] at hstarts
  | cons c cs => exact ⟨c, cs, rfl, by simpa [h] using hstarts⟩

theorem scan : Lexeme.scan name.text.toList = (wordKind name.text, name.text.toList) := by
  obtain ⟨c, cs, hcs, hc⟩ := name.exists_cons
  have hword : (c :: cs).takeWhile isWordPart = c :: cs := by
    have hparts : ∀ x ∈ c :: cs, isWordPart x := hcs ▸ name.parts
    have happend : ∀ rest, ((c :: cs) ++ rest).takeWhile isWordPart =
        (c :: cs) ++ rest.takeWhile isWordPart := fun _ => List.takeWhile_append_of_pos hparts
    simpa using happend []
  have htext : String.ofList (c :: cs) = name.text := by rw [← hcs, String.ofList_toList]
  have hnumber : Lexeme.startsNumber (c :: cs) = false := by
    have hpoint : c ≠ '.' := by
      rintro rfl
      exact absurd hc (by decide)
    simp [Lexeme.startsNumber_cons, not_isDigit_of_isWordStart hc, hpoint]
  rw [hcs]
  unfold Lexeme.scan
  split
  -- A word starts with none of the marks that start a comment or a string.
  · next h => cases h; exact absurd hc (by decide)
  · next h => cases h; exact absurd hc (by decide)
  · next h => cases h; exact absurd hc (by decide)
  · next h => cases h; exact absurd hc (by decide)
  · next h => cases h; exact absurd hc (by decide)
  · rw [hnumber, if_neg (by decide), Lexeme.wordOrMark, if_pos (by simpa using hc)]
    simp only [hword, htext]

theorem lone : (Token.word (wordKind name.text) name.text).Lone := by
  obtain ⟨c, cs, hcs, hc⟩ := name.exists_cons
  refine Token.lone_of_scan ⟨name.scan, ?_, ?_, ?_⟩
  · show ¬ name.text.toList.head?.any isBlank
    rw [hcs]
    exact not_isBlank_of_isWordPart (Lexeme.isWordPart_of_isWordStart hc)
  · show name.text.toList ≠ []
    rw [hcs]
    exact List.cons_ne_nil c cs
  · show wordKind name.text ∉ _
    unfold wordKind
    split_ifs <;> decide

end MemberName

theorem Name.wordKind_eq (name : Name) : wordKind name.text = .identifier := by
  have hreserved : ∀ word ∈ ["true", "false", "null"], isReserved word := by decide
  have hne : ∀ word ∈ ["true", "false", "null"], name.text ≠ word := by
    rintro word hmem heq
    exact name.free (heq ▸ hreserved word hmem)
  simp only [List.forall_mem_cons] at hne
  obtain ⟨htrue, hfalse, hnull, -⟩ := hne
  simp [wordKind, htrue, hfalse, hnull, name.free]

theorem Name.lone (name : Name) : (Token.word .identifier name.text).Lone := by
  have h := name.toMemberName.lone
  rwa [name.wordKind_eq] at h

theorem QuotedText.lone (q : QuotedText) : (Token.word .string q.lexeme).Lone := by
  obtain ⟨quote, body, hquote, hbody⟩ := q
  have hchars : (Token.word .string (QuotedText.mk quote body hquote hbody).lexeme).value.toList =
      quote :: (body ++ [quote]) := by
    simp [Token.word, QuotedText.lexeme]
  have hclosed : Lexeme.throughQuote quote (body ++ [quote]) = body ++ [quote] := by
    refine Lexeme.throughQuote_closed ?_ hbody []
    rcases hquote with rfl | rfl <;> decide
  refine ⟨?_, nofun, ?_⟩
  · rw [hchars]
    refine ⟨?_, ?_, List.cons_ne_nil _ _⟩
    · rw [List.append_nil]
      rcases hquote with rfl | rfl
      · show (TokenKind.string, '\x22' :: Lexeme.throughQuote '\x22' (body ++ ['\x22'])) = _
        rw [hclosed]
        rfl
      · show (TokenKind.string, '\x27' :: Lexeme.throughQuote '\x27' (body ++ ['\x27'])) = _
        rw [hclosed]
        rfl
    · rintro c ⟨⟩
      rcases hquote with rfl | rfl <;> decide
  · rw [hchars]
    rcases hquote with rfl | rfl
    · exact fun h => h.1 ⟨body, rfl, hbody⟩
    · exact fun h => h.2 ⟨body, rfl, hbody⟩

/-! ### Lists of tokens -/

def AllLone (u : List Token) : Prop := ∀ t ∈ u, t.Lone

namespace AllLone

variable {u v : List Token} {t : Token}

theorem cons (ht : t.Lone) (hu : AllLone u) : AllLone (t :: u) := List.forall_mem_cons.2 ⟨ht, hu⟩

theorem single (ht : t.Lone) : AllLone [t] := cons ht (List.forall_mem_nil _)

theorem append (hu : AllLone u) (hv : AllLone v) : AllLone (u ++ v) :=
  List.forall_mem_append.2 ⟨hu, hv⟩

theorem parenthesized (hu : AllLone u) : AllLone (parenthesized u) :=
  cons (Token.lone_of_scan (by decide +kernel))
    (hu.append (single (Token.lone_of_scan (by decide +kernel))))

theorem placedAt {position own : Precedence} (hu : AllLone u) :
    AllLone (placedAt position own u) := by
  unfold JsSyntax.placedAt
  split
  · exact hu
  · exact hu.parenthesized

end AllLone

/-! ### Fixed tokens -/

theorem lone_of_mem {kind : TokenKind} {texts : List String} {text : String} (hmem : text ∈ texts)
    (hkind : kind ∉ [.comment, .string, .templateString])
    (h : ∀ text ∈ texts, Lexeme.scan text.toList = (kind, text.toList) ∧
      ¬ text.toList.head?.any isBlank ∧ text.toList ≠ []) : (Token.word kind text).Lone :=
  Token.lone_of_scan ⟨(h text hmem).1, (h text hmem).2.1, (h text hmem).2.2, hkind⟩

theorem mark_lone {text : String} (h : text ∈ punctuationMarks) : (Token.mark text).Lone :=
  lone_of_mem h (by decide) (by decide +kernel)

theorem operator_lone {text : String} (h : text ∈ operators) : (Token.operator text).Lone :=
  lone_of_mem h (by decide) (by decide +kernel)

theorem keyword_lone {text : String}
    (h : text ∈ ["this", "new", "await", "typeof", "void", "delete"]) :
    (Token.keyword text).Lone :=
  lone_of_mem h (by decide) (by decide +kernel)

theorem boolean_lone (value : Bool) : (Token.word .boolean (booleanLexeme value)).Lone :=
  have hmem : booleanLexeme value ∈ ["true", "false"] := by cases value <;> decide
  lone_of_mem hmem (by decide) (by decide +kernel)

theorem null_lone : (Token.word .null "null").Lone :=
  lone_of_mem (List.mem_singleton_self _) (by decide) (by decide +kernel)

theorem unaryOp_lone (op : UnaryOp) : op.token.Lone := by
  cases op with
  | not | bitNot | plus | minus => exact operator_lone (by decide)
  | typeof | void | delete => exact keyword_lone (by decide)

/-! ### Trees -/

open AllLone

mutual

theorem Tree.lone : (e : Tree) → AllLone e.tokens
  | .target t => by
    simp only [Tree.tokens]
    exact t.lone
  | .this => single (keyword_lone (by decide))
  | .boolean value => single (boolean_lone value)
  | .null => single null_lone
  | .string q => single q.lone
  | .array slots => by
    simp only [Tree.tokens]
    exact cons (mark_lone (by decide))
      (append (Tree.slots_lone slots) (single (mark_lone (by decide))))
  | .unary op argument => by
    simp only [Tree.tokens]
    exact cons (unaryOp_lone op) argument.lone.placedAt
  | .await argument => by
    simp only [Tree.tokens]
    exact cons (keyword_lone (by decide)) argument.lone.placedAt
  | .update op before argument => by
    have hop : (Token.operator op.symbol).Lone := operator_lone (by cases op <;> decide)
    simp only [Tree.tokens]
    split
    · exact cons hop argument.lone
    · exact append argument.lone (single hop)
  | .binary op left right => by
    simp only [Tree.tokens]
    exact append left.lone.placedAt
      (cons (operator_lone (by cases op <;> decide)) right.lone.placedAt)
  | .logical op left right => by
    simp only [Tree.tokens]
    exact append left.lone.placedAt
      (cons (operator_lone (by cases op <;> decide)) right.lone.placedAt)
  | .conditional test consequent alternate => by
    simp only [Tree.tokens]
    exact append test.lone.placedAt (cons (operator_lone (by decide))
      (append consequent.lone.placedAt (cons (mark_lone (by decide)) alternate.lone.placedAt)))
  | .assign op left right => by
    simp only [Tree.tokens]
    exact append left.lone (cons (operator_lone (by cases op <;> decide)) right.lone.placedAt)
  | .call callee args => by
    simp only [Tree.tokens]
    exact append callee.lone.placedAt (cons (mark_lone (by decide))
      (append (Tree.list_lone args) (single (mark_lone (by decide)))))
  | .new callee args => by
    simp only [Tree.tokens]
    refine cons (keyword_lone (by decide)) (append ?_ (cons (mark_lone (by decide))
      (append (Tree.list_lone args) (single (mark_lone (by decide))))))
    split
    · exact callee.lone
    · exact callee.lone.parenthesized

theorem Tree.list_lone : (args : List Tree) → AllLone (Tree.listTokens args)
  | [] => List.forall_mem_nil _
  | [e] => by
    simp only [Tree.listTokens]
    exact e.lone.placedAt
  | e :: e' :: es => by
    rw [Tree.listTokens]
    · exact append e.lone.placedAt (cons (mark_lone (by decide)) (Tree.list_lone (e' :: es)))
    · exact List.cons_ne_nil _ _

theorem Tree.slots_lone : (slots : List (Option Tree)) → AllLone (Tree.slotsTokens slots)
  | [] => List.forall_mem_nil _
  | none :: slots => cons (mark_lone (by decide)) (Tree.slots_lone slots)
  | some e :: slots => by
    simp only [Tree.slotsTokens]
    exact append e.lone.placedAt (cons (mark_lone (by decide)) (Tree.slots_lone slots))

theorem TargetTree.lone : (t : TargetTree) → AllLone t.tokens
  | .name name => single name.lone
  | .field object name => by
    simp only [TargetTree.tokens]
    exact append object.lone.placedAt (cons (mark_lone (by decide)) (single name.lone))
  | .element object index => by
    simp only [TargetTree.tokens]
    exact append object.lone.placedAt (cons (mark_lone (by decide))
      (append index.lone.placedAt (single (mark_lone (by decide)))))

end

end JsSyntax
