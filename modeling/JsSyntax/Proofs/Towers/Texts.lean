import JsSyntax.Proofs.Towers.Routines

/-! # Towers as they are written

A `Tower` is a phrase around a phrase like it, and so on: parentheses, negations, `new`s or blocks.
`source` writes down a tower of any height, `tokens` are the tokens of that text, with a declaration
behind it or not (`Tower.rest_source`), and `statements` says what it is read as.
-/

set_option autoImplicit false

namespace JsSyntax

open Parse

/-! ## Repeated characters in a text -/

/-- The text so many times. -/
def repeated (n : Nat) (text : String) : String := String.join (List.replicate n text)

theorem toList_repeated (n : Nat) (text : String) :
    (repeated n text).toList = (List.replicate n text.toList).flatten := by
  rw [repeated, String.toList_join, List.flatMap_def, List.map_replicate]

theorem toList_repeated_char (n : Nat) {text : String} {c : Char} (h : text.toList = [c]) :
    (repeated n text).toList = List.replicate n c := by
  rw [toList_repeated, h, List.flatten_replicate_singleton]

theorem delimiter_of_mark {c : Char} (h : c ∈ ['(', ')', '\x7b', '\x7d', '!']) :
    Delimiter c := by
  simp only [List.mem_cons, List.not_mem_nil, or_false] at h
  rcases h with rfl | rfl | rfl | rfl | rfl <;>
    exact ⟨by decide, by decide, mark_avoids (by decide +kernel)⟩

/-- A mark that is found in front of one character is found in front of it when a delimiter
follows. -/
theorem Token.Lone.in_front {t : Token} {c d : Char} {cs : List Char} (ht : t.Lone)
    (hchars : t.value.toList = [c]) (hscan : Lexeme.scan [c, d] = (t.kind, [c]))
    (hcs : Delimited cs) : LexemeAt t.kind [c] (d :: cs) := by
  have hfront : LexemeAt t.kind [c] [d] := ⟨hscan, hchars ▸ ht.1.starts, List.cons_ne_nil c []⟩
  cases cs with
  | nil => exact hfront
  | cons e cs => exact hfront.extend (hcs e rfl) (fun _ => .inr (List.cons_ne_nil d [])) nofun cs

theorem Delimited.replicate {c : Char} {cs : List Char} (hc : Delimiter c) (hcs : Delimited cs)
    (n : Nat) : Delimited (List.replicate n c ++ cs) := by
  cases n with
  | zero => exact hcs
  | succ n => exact .cons hc

/-- A mark so many times in front of a text. -/
theorem HasPhrases.replicate {t : Token} {c : Char} {cs : List Char}
    {ps : List (TokenKind × String)} (ht : t.Lone) (hc : Delimiter c)
    (hchars : t.value.toList = [c]) (hl : LexemeAt t.kind [c] cs) (h : HasPhrases cs ps) (n : Nat) :
    HasPhrases (List.replicate n c ++ cs) (List.replicate n t.phrase ++ ps) := by
  induction n with
  | zero => exact h
  | succ n ih =>
    have hlexeme : LexemeAt t.kind t.value.toList (List.replicate n c ++ cs) := by
      cases n with
      | zero => exact hchars ▸ hl
      | succ n => exact ht.lexemeAt (.cons hc)
    have hcons := HasPhrases.cons hlexeme ih
    rwa [String.ofList_toList, hchars] at hcons

/-! ## Towers -/

/-- The number one, `2 ^ 52 · 2 ^ -52`. -/
def Double.one : Double := .finite (powTwo 52) (-52)

theorem Double.ofNumeral?_one : Double.ofNumeral? "1" = some .one := by decide +kernel

/-- The ways for a phrase to stand in a phrase like it. -/
inductive Tower where
  | parentheses
  | negations
  | constructions
  | blocks

namespace Tower

def source : Tower → Nat → String
  | .parentheses, n => repeated n "(" ++ "1" ++ repeated n ")" ++ ";"
  | .negations, n => repeated n "!" ++ "x;"
  | .constructions, n => repeated n "new " ++ "X;"
  | .blocks, n => repeated n "\x7b" ++ repeated n "\x7d"

/-- The highest tower that is read. -/
def highest : Tower → Nat
  | .parentheses | .negations | .constructions => 62
  | .blocks => 64

def tokens : Tower → Nat → List Token
  | .parentheses, n => surrounded n (.mark "(") (.mark ")") [.word .number "1"] ++ [.mark ";"]
  | .negations, n => List.replicate n (.operator "!") ++ [.word .identifier "x", .mark ";"]
  | .constructions, n => List.replicate n (.keyword "new") ++ [.word .identifier "X", .mark ";"]
  | .blocks, n => braces n

/-- What a tower starts with again and again. -/
def opener : Tower → Token
  | .parentheses => .mark "("
  | .negations => .operator "!"
  | .constructions => .keyword "new"
  | .blocks => .mark "\x7b"

/-- What stands between that and the last token. -/
def inner : Tower → Nat → List Token
  | .parentheses, n => .word .number "1" :: List.replicate n (.mark ")")
  | .negations, _ => [.word .identifier "x"]
  | .constructions, _ => [.word .identifier "X"]
  | .blocks, n => List.replicate (n - 1) (.mark "\x7d")

def closer : Tower → Token
  | .parentheses | .negations | .constructions => .mark ";"
  | .blocks => .mark "\x7d"

theorem tokens_eq (t : Tower) {n : Nat} (h : 0 < n) :
    t.tokens n = List.replicate n t.opener ++ (t.inner n ++ [t.closer]) := by
  cases t with
  | parentheses => simp [tokens, surrounded, opener, inner, closer]
  | negations | constructions => rfl
  | blocks =>
    obtain ⟨m, rfl⟩ := Nat.exists_eq_add_of_le' h
    simp [tokens, braces, surrounded, opener, inner, closer, ← List.replicate_succ']

/-- What the tower is read as; braces that are not there are no statement. -/
def statements : Tower → Nat → List (Statement Unit)
  | .parentheses, _ => [.expression (.literal ⟨.number .one, "1", ()⟩) ()]
  | .negations, n => [.expression ((fun e => .unary .not e ())^[n] (.ident ⟨"x", ()⟩)) ()]
  | .constructions, n => [.expression ((fun e => .new e [] ())^[n] (.ident ⟨"X", ()⟩)) ()]
  | .blocks, n => nestedBlocks n

/-- Braces that are there are one statement. -/
theorem length_statements {t : Tower} {n : Nat} (h : t = .blocks → 1 ≤ n) :
    (t.statements n).length = 1 := by
  cases t with
  | blocks =>
    obtain ⟨m, rfl⟩ := Nat.exists_eq_add_of_le' (h rfl)
    rfl
  | parentheses | negations | constructions => rfl

/-! ### The declaration behind a tower -/

def declarationTokens : List Token :=
  [.keyword "let", .word .identifier "after", .operator "=", .word .number "1", .mark ";"]

def declaration : Statement Unit :=
  .vars ⟨.let, [⟨⟨"after", ()⟩, some (.literal ⟨.number .one, "1", ()⟩), ()⟩], ()⟩

/-! ### Texts -/

section
variable {cs : List Char} {ps : List (TokenKind × String)} (h : HasPhrases cs ps)
  (hcs : Delimited cs)
include h hcs

theorem hasPhrases_semicolon : HasPhrases (';' :: cs) ((.punctuation, ";") :: ps) :=
  .token (t := .mark ";") (mark_lone (by decide)) hcs h

theorem hasPhrases_parentheses (n : Nat) : HasPhrases ((source .parentheses n).toList ++ cs)
    ((tokens .parentheses n).map Token.phrase ++ ps) := by
  have hopen : (Token.mark "(").Lone := mark_lone (by decide)
  have hclose : (Token.mark ")").Lone := mark_lone (by decide)
  have hnumber : (Token.word .number "1").Lone := Token.lone_of_scan (by decide +kernel)
  have hleft : Delimiter '(' := delimiter_of_mark (by decide)
  have hright : Delimiter ')' := delimiter_of_mark (by decide)
  have hscan : Lexeme.scan ['(', '1'] = (.punctuation, ['(']) := by decide +kernel
  have hsemicolon : Delimited (';' :: cs) := .cons delimiter_semicolon
  have hclosed := HasPhrases.replicate hclose hright rfl (hclose.lexemeAt hsemicolon)
    (hasPhrases_semicolon h hcs) n
  have hbehind := Delimited.replicate hright hsemicolon n
  have hall := HasPhrases.replicate hopen hleft rfl (hopen.in_front rfl hscan hbehind)
    (.token hnumber hbehind hclosed) n
  have htext : (source .parentheses n).toList =
      List.replicate n '(' ++ ('1' :: (List.replicate n ')' ++ [';'])) := by
    simp [source, toList_repeated_char n]
  simpa [htext, tokens, surrounded, Token.phrase, Token.mark, Token.word] using hall

theorem hasPhrases_negations (n : Nat) : HasPhrases ((source .negations n).toList ++ cs)
    ((tokens .negations n).map Token.phrase ++ ps) := by
  have hmark : (Token.operator "!").Lone := operator_lone (by decide)
  have hname : (Token.word .identifier "x").Lone := Token.lone_of_scan (by decide +kernel)
  have hnot : Delimiter '!' := delimiter_of_mark (by decide)
  have hscan : Lexeme.scan ['!', 'x'] = (.operator, ['!']) := by decide +kernel
  have hsemicolon : Delimited (';' :: cs) := .cons delimiter_semicolon
  have hall := HasPhrases.replicate hmark hnot rfl (hmark.in_front rfl hscan hsemicolon)
    (.token hname hsemicolon (hasPhrases_semicolon h hcs)) n
  have htext : (source .negations n).toList = List.replicate n '!' ++ ['x', ';'] := by
    simp [source, toList_repeated_char n]
  simpa [htext, tokens, Token.phrase, Token.mark, Token.operator, Token.word] using hall

theorem hasPhrases_constructions (n : Nat) : HasPhrases ((source .constructions n).toList ++ cs)
    ((tokens .constructions n).map Token.phrase ++ ps) := by
  have hkeyword : (Token.keyword "new").Lone := keyword_lone (by decide)
  have hname : (Token.word .identifier "X").Lone := Token.lone_of_scan (by decide +kernel)
  have hsemicolon : Delimited (';' :: cs) := .cons delimiter_semicolon
  have htext : (source .constructions n).toList ++ cs =
      (List.replicate n ("new".toList ++ [' '])).flatten ++ ('X' :: ';' :: cs) := by
    have hnew : "new ".toList = "new".toList ++ [' '] := by decide
    simp [source, toList_repeated, hnew]
  rw [htext]
  clear htext
  induction n with
  | zero => exact .token hname hsemicolon (hasPhrases_semicolon h hcs)
  | succ n ih =>
    have hcons := HasPhrases.token hkeyword (.cons (delimiter_of_blank (by decide)))
      (.blank (by decide : isBlank ' ') ih)
    rw [List.replicate_succ, List.flatten_cons, List.append_assoc, List.append_assoc]
    exact hcons

theorem hasPhrases_blocks (n : Nat) : HasPhrases ((source .blocks n).toList ++ cs)
    ((tokens .blocks n).map Token.phrase ++ ps) := by
  have hopen : (Token.mark "\x7b").Lone := mark_lone (by decide)
  have hclose : (Token.mark "\x7d").Lone := mark_lone (by decide)
  have hleft : Delimiter '\x7b' := delimiter_of_mark (by decide)
  have hright : Delimiter '\x7d' := delimiter_of_mark (by decide)
  have hclosed := HasPhrases.replicate hclose hright rfl (hclose.lexemeAt hcs) h n
  have hall := HasPhrases.replicate hopen hleft rfl
    (hopen.lexemeAt (Delimited.replicate hright hcs n)) hclosed n
  have htext : (source .blocks n).toList = List.replicate n '\x7b' ++ List.replicate n '\x7d' := by
    simp [source, toList_repeated_char n]
  simpa [htext, tokens, braces, surrounded] using hall

theorem hasPhrases : (t : Tower) → (n : Nat) →
    HasPhrases ((source t n).toList ++ cs) ((tokens t n).map Token.phrase ++ ps)
  | .parentheses => hasPhrases_parentheses h hcs
  | .negations => hasPhrases_negations h hcs
  | .constructions => hasPhrases_constructions h hcs
  | .blocks => hasPhrases_blocks h hcs

end

theorem declaration_lone : AllLone declarationTokens := by
  refine .cons ?_ (.cons ?_ (.cons ?_ (.cons ?_ (.single ?_))))
  · exact Token.lone_of_scan (by decide +kernel)
  · exact Token.lone_of_scan (by decide +kernel)
  · exact operator_lone (by decide)
  · exact Token.lone_of_scan (by decide +kernel)
  · exact mark_lone (by decide)

theorem hasPhrases_declaration :
    HasPhrases "\nlet after = 1;".toList (declarationTokens.map Token.phrase) := by
  have hblank : ∀ cs, Delimited (' ' :: cs) := fun cs => .cons (delimiter_of_blank (by decide))
  have htext : "\nlet after = 1;".toList = '\n' :: ("let".toList ++ ' ' :: ("after".toList ++
      ' ' :: ("=".toList ++ ' ' :: ("1".toList ++ (";".toList ++ []))))) := by decide +kernel
  have hlone := declaration_lone
  simp only [AllLone, declarationTokens, List.forall_mem_cons] at hlone
  obtain ⟨hlet, hafter, heq, hone, hsemicolon, -⟩ := hlone
  rw [htext]
  refine .blank (by decide) (.token hlet (hblank _) (.blank (by decide) ?_))
  refine .token hafter (hblank _) (.blank (by decide) ?_)
  refine .token heq (hblank _) (.blank (by decide) ?_)
  exact .token hone (.cons delimiter_semicolon) (.token hsemicolon .nil .nil)

theorem tokens_ne_comment (t : Tower) (n : Nat) : ∀ x ∈ t.tokens n, x.kind ≠ .comment := by
  cases t <;>
    simp [tokens, surrounded, braces, or_imp, forall_and, Token.mark, Token.operator,
      Token.keyword, Token.word]

theorem goesOn_opener (t : Tower) : goesOn t.opener := by
  cases t <;> decide

theorem goesOn_inner (t : Tower) (n : Nat) : ∀ x ∈ t.inner n, goesOn x := by
  cases t with
  | parentheses =>
    exact List.forall_mem_cons.2 ⟨by decide, List.forall_mem_replicate.2 (.inr (by decide))⟩
  | negations | constructions => exact List.forall_mem_singleton.2 (by decide)
  | blocks => exact List.forall_mem_replicate.2 (.inr (by decide))

theorem rest_source (t : Tower) (n : Nat) :
    (startOf (t.source n ++ "\nlet after = 1;")).rest.map Token.phrase =
      (t.tokens n ++ declarationTokens).map Token.phrase := by
  refine HasPhrases.rest ?_ (List.forall_mem_append.2 ⟨tokens_ne_comment t n, by decide⟩)
  have hdelimited : Delimited "\nlet after = 1;".toList :=
    .cons (delimiter_of_blank (by decide))
  rw [String.toList_append, List.map_append]
  exact hasPhrases hasPhrases_declaration hdelimited t n

end Tower

end JsSyntax
