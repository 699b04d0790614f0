import JsSyntax.Proofs.Layout
import JsSyntax.Proofs.Token.Splice

/-! # The text of an expression in a `return`

The tokens of a text are the same in front of a delimiter, wherever it stands, unless the text ends
with a comment or inside a token that has not been closed (`EndsClosed.exists_lexes`). So they are
between `return` and a semicolon (`rest_return`).
-/

set_option autoImplicit false

namespace JsSyntax

open Parse Grammar

/-! ## Texts elsewhere -/

theorem Lexes.exists_at {p : Position} {cs : List Char} {ts : List Token} (h : Lexes p cs ts)
    (q : Position) : ∃ us, Lexes q cs us ∧ us.map Token.phrase = ts.map Token.phrase := by
  induction h generalizing q with
  | stop hb => exact ⟨_, .stop hb, rfl⟩
  | token hb hl _ ih =>
    obtain ⟨us, hus, heq⟩ := ih _
    exact ⟨_, .token hb hl hus, List.cons_eq_cons.2 ⟨rfl, heq⟩⟩

/-- The text does not end with a comment, nor inside a token. -/
def EndsClosed (source : String) : Prop :=
  ∀ t ∈ (tokenize source).dropLast.getLast?, t.kind ≠ .comment ∧ ¬ Unclosed t.kind t.value.toList

/-- Such a text is divided in front of a delimiter as it is on its own. -/
theorem EndsClosed.exists_lexes {text : String} (h : EndsClosed text) {p : Position} {c : Char}
    {bs : List Char} {us : List Token} (hc : Delimiter c)
    (hb : Lexes (p.advanceBy text.toList) (c :: bs) us) :
    ∃ ts, Lexes p (text.toList ++ c :: bs) (ts ++ us) ∧
      ts.map Token.phrase = (tokenize text).dropLast.map Token.phrase := by
  obtain ⟨ts, hts, heq⟩ := (lexes_tokenize text).exists_at p
  have hphrases : ts.dropLast.map Token.phrase = (tokenize text).dropLast.map Token.phrase := by
    rw [List.map_dropLast, List.map_dropLast, heq]
  have hlast : ∀ t ∈ ts.dropLast.getLast?,
      t.kind ≠ .comment ∧ ¬ Unclosed t.kind t.value.toList := by
    intro t ht
    have hphrase := congrArg List.getLast? hphrases
    rw [List.getLast?_map, List.getLast?_map, Option.mem_def.1 ht] at hphrase
    obtain ⟨t', ht', heq⟩ := Option.map_eq_some_iff.1 hphrase.symm
    obtain ⟨hkind, hvalue⟩ := Prod.mk.inj heq
    exact hkind ▸ hvalue ▸ h t' ht'
  have hcomment : ∀ t ∈ ts.dropLast.getLast?, t.kind = .comment → c = '\n' :=
    fun t ht hk => absurd hk (hlast t ht).1
  exact ⟨ts.dropLast, hts.append_delimited hc hcomment (fun t ht => (hlast t ht).2) hb, hphrases⟩

theorem endsClosed_return : EndsClosed "return" := by
  have hword : ∀ t ∈ (tokenize "return").dropLast.getLast?, t.kind = .keyword := by decide +kernel
  intro t ht
  rw [hword t ht]
  exact ⟨by decide, not_false⟩

theorem tokenize_return {text : String} (h : EndsClosed text) :
    (tokenize ("return " ++ text ++ ";")).map Token.phrase =
      (.keyword, "return") :: ((tokenize text).dropLast.map Token.phrase ++
        [(.punctuation, ";"), (.eof, "")]) := by
  have hblank : isBlank ' ' := by decide
  obtain ⟨us, hus, hsemi⟩ := (lexes_tokenize ";").exists_at
    (((Position.first.advanceBy "return".toList).advanceBy [' ']).advanceBy text.toList)
  obtain ⟨ts, hts, htext⟩ := h.exists_lexes delimiter_semicolon hus
  obtain ⟨rs, hrs, hreturn⟩ := endsClosed_return.exists_lexes (delimiter_of_blank hblank)
    (.of_blanks (List.forall_mem_singleton.2 hblank) hts)
  have hkeyword : (tokenize "return").dropLast.map Token.phrase = [(.keyword, "return")] := by
    decide +kernel
  have hmark : (tokenize ";").map Token.phrase = [(.punctuation, ";"), (.eof, "")] := by
    decide +kernel
  have hchars : ("return " ++ text ++ ";").toList =
      "return".toList ++ ([' '] ++ (text.toList ++ [';'])) := by simp
  have hlex := lexes_tokenize ("return " ++ text ++ ";")
  rw [hchars] at hlex
  rw [hlex.unique hrs, List.map_append, List.map_append, hreturn, hkeyword, htext, hsemi, hmark]
  rfl

/-- What the parser has ahead at the start of the text of a `return`. -/
theorem rest_return {text : String} (h : EndsClosed text) :
    (startOf ("return " ++ text ++ ";")).rest.map Token.phrase =
      (.keyword, "return") :: ((startOf text).rest.map Token.phrase ++ [(.punctuation, ";")]) := by
  obtain ⟨us, hus, -⟩ := (lexes_tokenize text).closing
  rw [rest_phrases, rest_phrases, tokenize_return h, hus]
  simp [Token.phrase, Token.eof]

end JsSyntax
