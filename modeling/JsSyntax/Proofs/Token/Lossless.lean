import Mathlib.Data.String.Basic
import JsSyntax.Proofs.Token.Lexes

/-! # Nothing of a text is lost

A source is what its tokens say, with blanks between them (`tokenize_lossless`): `weave` writes the
tokens and the gaps in turn, and the offsets of a token are those of its lexeme in the text. Any
text that starts a token is found again as the slice of the source from that token on
(`Lexes.mem_split`).
-/

set_option autoImplicit false

namespace JsSyntax

open String (utf8Len)

/-! ## Slices -/

/-- The text of a source between two byte offsets. -/
def slice (source : String) (start stop : Nat) : String :=
  String.Pos.Raw.extract source ⟨start⟩ ⟨stop⟩

/-- The text that a span of a source covers. -/
def Span.text (s : Span) (source : String) : String := slice source s.start.offset s.stop.offset

theorem slice_of_append {source : String} {before text behind : List Char} {start stop : Nat}
    (h : source.toList = before ++ (text ++ behind)) (hstart : start = utf8Len before)
    (hstop : stop = start + utf8Len text) : slice source start stop = String.ofList text := by
  have hsource : source = String.ofList (before ++ text ++ behind) := by
    rw [List.append_assoc, ← h, String.ofList_toList]
  rw [slice, hsource, hstop, hstart]
  exact String.extract_of_valid before text behind

theorem utf8Len_toList (s : String) : utf8Len s.toList = s.utf8ByteSize := by
  rw [← String.utf8ByteSize_ofList, String.ofList_toList]

theorem Position.offset_advanceBy (p : Position) (cs : List Char) :
    (p.advanceBy cs).offset = p.offset + utf8Len cs := by
  induction cs generalizing p with
  | nil => rfl
  | cons c cs ih =>
    have hc : (p.advance c).offset = p.offset + c.utf8Size := by
      unfold advance
      split <;> rfl
    rw [advanceBy_cons, ih, hc, String.utf8Len_cons]
    omega

/-- The end of a lexeme lies as many bytes behind its start as the lexeme has. -/
theorem Token.stop_of (kind : TokenKind) (lexeme : List Char) (p : Position) :
    (Token.of kind lexeme p).span.stop.offset = p.offset + utf8Len lexeme :=
  p.offset_advanceBy lexeme

/-! ## The place of a token -/

namespace Lexes

variable {p : Position} {cs : List Char} {ts : List Token}

/-- Every token but the closing one stands for a lexeme of the text. -/
theorem mem_split (h : Lexes p cs ts) : ∀ t ∈ ts, t.kind ≠ .eof →
    ∃ before lexeme rest kind, cs = before ++ (lexeme ++ rest) ∧
      t = .of kind lexeme (p.advanceBy before) ∧ LexemeAt kind lexeme rest := by
  induction h with
  | stop _ =>
    rintro t (_ | ⟨_, ht⟩) hk
    · exact absurd rfl hk
    · cases ht
  | @token p blanks lexeme rest kind ts _ hl _ ih =>
    rintro t (_ | ⟨_, ht⟩) hk
    · exact ⟨blanks, lexeme, rest, kind, rfl, rfl, hl⟩
    · obtain ⟨before, lexeme', rest', kind', hrest, rfl, hl'⟩ := ih t ht hk
      refine ⟨blanks ++ lexeme ++ before, lexeme', rest', kind', ?_, ?_, hl'⟩
      · rw [hrest]
        simp only [List.append_assoc]
      · rw [Position.advanceBy_append _ (blanks ++ lexeme)]

/-- No token goes on behind the end of the text. -/
theorem stop_le (h : Lexes p cs ts) :
    ∀ t ∈ ts, t.kind ≠ .eof → t.span.stop.offset ≤ (p.advanceBy cs).offset := by
  intro t ht hkind
  obtain ⟨before, lexeme, rest, kind, rfl, rfl, -⟩ := h.mem_split t ht hkind
  rw [Token.of, ← List.append_assoc, Position.advanceBy_append, Position.advanceBy_append]
  exact Position.offset_le_advanceBy _ rest

end Lexes

/-! ## Tokens and gaps -/

/-- Gaps and lexemes in turn, the first gap in front of the first token. -/
def weave : List (List Char) → List Token → List Char
  | [], _ => []
  | gap :: _, [] => gap
  | gap :: gaps, t :: ts => gap ++ (t.value.toList ++ weave gaps ts)

/-- The source is the tokens with the gaps around them, and every token stands where its span says:
behind the gaps and lexemes before it. -/
structure Woven (source : String) (gaps : List (List Char)) (ts : List Token) : Prop where
  length : gaps.length = ts.length + 1
  text : source.toList = weave gaps ts
  blank : ∀ gap ∈ gaps, AllBlank gap
  ne_eof : ∀ t ∈ ts, t.kind ≠ .eof
  ne_empty : ∀ t ∈ ts, t.value ≠ ""
  head_not_blank : ∀ t ∈ ts, ∀ c ∈ t.value.toList.head?, ¬ isBlank c
  start : ∀ i (h : i < ts.length),
    ts[i].span.start.offset = utf8Len (weave (gaps.take (i + 1)) (ts.take i))
  stop : ∀ t ∈ ts, t.span.stop.offset = t.span.start.offset + t.value.utf8ByteSize
  slice : ∀ t ∈ ts, t.span.text source = t.value
  start_lt_stop : ∀ t ∈ ts, t.span.start.offset < t.span.stop.offset
  pairwise : ts.Pairwise fun t t' => t.span.stop.offset ≤ t'.span.start.offset

/-- The gaps of a text, and where its tokens stand. -/
theorem Lexes.exists_gaps {p : Position} {cs : List Char} {ts : List Token} (h : Lexes p cs ts) :
    ∃ gaps us, ts = us ++ [.eof (p.advanceBy cs)] ∧ gaps.length = us.length + 1 ∧
      cs = weave gaps us ∧ (∀ gap ∈ gaps, AllBlank gap) ∧
      ∀ i (h : i < us.length),
        us[i].span.start.offset = p.offset + utf8Len (weave (gaps.take (i + 1)) (us.take i)) := by
  induction h with
  | @stop p blanks hb => exact ⟨[blanks], [], rfl, rfl, rfl, by simpa using hb, by simp⟩
  | @token p blanks lexeme rest kind ts hb hl _ ih =>
    obtain ⟨gaps, us, hts, hlength, hrest, hblank, hstart⟩ := ih
    refine ⟨blanks :: gaps, .of kind lexeme (p.advanceBy blanks) :: us, ?_, ?_, ?_, ?_, ?_⟩
    · rw [hts]
      simp only [Position.advanceBy_append, List.cons_append]
    · rw [List.length_cons, List.length_cons, hlength]
    · simp only [weave, Token.of, String.toList_ofList, ← hrest]
    · simpa using ⟨hb, hblank⟩
    · intro i hi
      cases i with
      | zero => simp [weave, Token.of, Position.offset_advanceBy]
      | succ i =>
        have := hstart i (by simpa using hi)
        simp only [List.getElem_cons_succ, this, List.take_succ_cons, weave, Token.of,
          String.toList_ofList, Position.offset_advanceBy, String.utf8Len_append]
        omega

/-- The tokens of a source with the blanks between them are the source, and one empty token at its
end closes the list. -/
theorem tokenize_lossless (source : String) : ∃ gaps ts closing,
    tokenize source = ts ++ [closing] ∧ Woven source gaps ts ∧ closing.kind = .eof ∧
    closing.value = "" ∧ closing.span.start.offset = source.utf8ByteSize ∧
    closing.span.stop.offset = source.utf8ByteSize := by
  have h := lexes_tokenize source
  obtain ⟨gaps, us, hts, hlength, htext, hblank, hstart⟩ := h.exists_gaps
  obtain ⟨us', hts', hne⟩ := h.closing
  obtain ⟨rfl, -⟩ := List.append_inj' (hts.symm.trans hts') rfl
  have hend : (Position.first.advanceBy source.toList).offset = source.utf8ByteSize := by
    rw [Position.offset_advanceBy, utf8Len_toList]
    exact Nat.zero_add _
  have hmem : ∀ t ∈ us, t ∈ tokenize source := fun t ht => by simp [hts, ht]
  have hlexeme : ∀ t ∈ us, ∃ before lexeme rest kind, source.toList = before ++ (lexeme ++ rest) ∧
      t = .of kind lexeme (Position.first.advanceBy before) ∧ LexemeAt kind lexeme rest :=
    fun t ht => h.mem_split t (hmem t ht) (hne t ht)
  refine ⟨gaps, us, _, hts, ?_, rfl, rfl, hend, hend⟩
  refine ⟨hlength, htext, hblank, hne, ?_, ?_, ?_, ?_, ?_, ?_, ?_⟩
  · intro t ht
    obtain ⟨before, lexeme, rest, kind, -, rfl, hl⟩ := hlexeme t ht
    simpa [Token.of] using hl.ne_nil
  · intro t ht
    obtain ⟨before, lexeme, rest, kind, -, rfl, hl⟩ := hlexeme t ht
    simpa [Token.of] using hl.starts
  · intro i hi
    simpa [Position.first] using hstart i hi
  · intro t ht
    obtain ⟨before, lexeme, rest, kind, -, rfl, -⟩ := hlexeme t ht
    rw [Token.stop_of, Token.of, String.utf8ByteSize_ofList]
  · intro t ht
    obtain ⟨before, lexeme, rest, kind, hsource, rfl, -⟩ := hlexeme t ht
    refine slice_of_append hsource ?_ (Token.stop_of ..)
    rw [Token.of, Position.offset_advanceBy]
    exact Nat.zero_add _
  · exact fun t ht => h.start_lt_stop t (hmem t ht) (hne t ht)
  · have := h.pairwise
    rw [hts] at this
    exact (List.pairwise_append.1 this).1

end JsSyntax
