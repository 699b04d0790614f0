import JsSyntax.Proofs.Parse.Runs
import JsSyntax.Proofs.Token.Lexes

/-! # Stretches of tokens in the text

The tokens that a parse reads stand one behind another in the text and cover at least one character
each (`Ordered`). A stretch of them can be found again from its span: it is made of the tokens that
lie within the span (`filter_within`).
-/

set_option autoImplicit false

namespace JsSyntax

open Grammar

namespace Parse

/-! ## Order -/

/-- The tokens stand one behind another and none is empty. -/
structure Ordered (ts : List Token) : Prop where
  pairwise : ts.Pairwise fun t t' => t.span.stop.offset ≤ t'.span.start.offset
  start_lt_stop : ∀ t ∈ ts, t.span.start.offset < t.span.stop.offset

namespace Ordered

variable {ts us : List Token}

theorem sublist (h : Ordered ts) (hs : us.Sublist ts) : Ordered us :=
  ⟨h.pairwise.sublist hs, fun t ht => h.start_lt_stop t (hs.subset ht)⟩

theorem head_le (h : Ordered ts) {first t : Token} (hf : ts.head? = some first) (ht : t ∈ ts) :
    first.span.start.offset ≤ t.span.start.offset := by
  obtain ⟨rest, rfl⟩ := List.head?_eq_some_iff.1 hf
  rcases List.mem_cons.1 ht with rfl | ht
  · exact Nat.le_refl _
  · have h₁ := h.start_lt_stop first List.mem_cons_self
    have h₂ := (List.pairwise_cons.1 h.pairwise).1 t ht
    omega

theorem le_getLast (h : Ordered ts) {last t : Token} (hl : ts.getLast? = some last)
    (ht : t ∈ ts) : t.span.stop.offset ≤ last.span.stop.offset := by
  obtain ⟨us, rfl⟩ := List.getLast?_eq_some_iff.1 hl
  rcases List.mem_append.1 ht with ht | ht
  · have h₁ := h.start_lt_stop last (by simp)
    have h₂ := (List.pairwise_append.1 h.pairwise).2.2 t ht last (by simp)
    omega
  · exact Nat.le_of_eq (by rw [List.mem_singleton.1 ht])

/-- The span of a stretch runs from its first token to its last. -/
theorem through (h : Ordered ts) {first last : Token} (hf : ts.head? = some first)
    (hl : ts.getLast? = some last) :
    first.span.through last.span = ⟨first.span.start, last.span.stop⟩ := by
  have hm := List.mem_of_mem_head? hf
  have h₁ := h.start_lt_stop first hm
  have h₂ := h.le_getLast hl hm
  exact Span.through_of_le (by omega)

end Ordered

/-! ## Tokens within a span -/

/-- The token lies within the span. -/
def Within (s : Span) (t : Token) : Prop :=
  s.start.offset ≤ t.span.start.offset ∧ t.span.stop.offset ≤ s.stop.offset

instance (s : Span) (t : Token) : Decidable (Within s t) := inferInstanceAs (Decidable (_ ∧ _))

/-- The tokens within the span of a stretch are the tokens of the stretch. -/
theorem filter_within {before u behind : List Token} {s : Span}
    (ho : Ordered (before ++ (u ++ behind))) (hs : Reading.spanned.Covers u s) :
    (before ++ (u ++ behind)).filter (Within s ·) = u := by
  obtain ⟨first, last, hf, hl, rfl⟩ := hs
  have hu : Ordered u :=
    ho.sublist ((List.sublist_append_left u behind).trans (List.sublist_append_right before _))
  obtain ⟨-, hp, hbefore⟩ := List.pairwise_append.1 ho.pairwise
  obtain ⟨-, -, hbehind⟩ := List.pairwise_append.1 hp
  have hfirst := List.mem_of_mem_head? hf
  have hlast := List.mem_of_getLast? hl
  rw [hu.through hf hl, List.filter_append, List.filter_append]
  have h₁ : before.filter (Within ⟨first.span.start, last.span.stop⟩ ·) = [] := by
    refine List.filter_eq_nil_iff.2 fun t ht => ?_
    have := ho.start_lt_stop t (by simp [ht])
    have := hbefore t ht first (by simp [hfirst])
    simp only [decide_eq_true_eq]
    dsimp only [Within]
    omega
  have h₂ : u.filter (Within ⟨first.span.start, last.span.stop⟩ ·) = u := by
    refine List.filter_eq_self.2 fun t ht => ?_
    have := hu.head_le hf ht
    have := hu.le_getLast hl ht
    simp only [decide_eq_true_eq]
    dsimp only [Within]
    omega
  have h₃ : behind.filter (Within ⟨first.span.start, last.span.stop⟩ ·) = [] := by
    refine List.filter_eq_nil_iff.2 fun t ht => ?_
    have := ho.start_lt_stop t (by simp [ht])
    have := hbehind last hlast t ht
    simp only [decide_eq_true_eq]
    dsimp only [Within]
    omega
  rw [h₁, h₂, h₃, List.nil_append, List.append_nil]

/-! ## The tokens of a source -/

/-- What a source is parsed from: its tokens but the comments, the closing token at the end. -/
theorem significant_eq (source : String) :
    significant source = (startOf source).rest ++ [(startOf source).closing] := by
  obtain ⟨us, hus, -⟩ := (lexes_tokenize source).closing
  have h : significant source =
      us.filter (·.kind ≠ .comment) ++ [.eof (Position.first.advanceBy source.toList)] := by
    simp [significant, hus, List.filter_append, Token.eof]
  simp [startOf, State.ofTokens, State.closing, h, Token.eof, Span.point]

theorem stop_startOf (source : String) :
    (startOf source).stop = Position.first.advanceBy source.toList := by
  obtain ⟨us, hus, -⟩ := (lexes_tokenize source).closing
  simp [startOf, State.ofTokens, significant, hus, List.filter_append, Token.eof, Span.point]

/-- None of the tokens ahead is a comment or the closing token. -/
theorem rest_startOf (source : String) : (startOf source).rest =
    (tokenize source).filter fun t => t.kind ≠ .comment ∧ t.kind ≠ .eof := by
  obtain ⟨us, hus, hk⟩ := (lexes_tokenize source).closing
  have h : us.filter (fun t => t.kind ≠ .comment ∧ t.kind ≠ .eof) =
      us.filter (·.kind ≠ .comment) := by
    refine List.filter_congr fun t ht => ?_
    simp [hk t ht]
  rw [hus, List.filter_append, h]
  simp [startOf, State.ofTokens, significant, hus, List.filter_append, Token.eof]

theorem ordered_startOf (source : String) : Ordered (startOf source).rest := by
  have h := lexes_tokenize source
  have hs : (startOf source).rest.Sublist (tokenize source) := by
    rw [rest_startOf]
    exact List.filter_sublist
  refine ⟨h.pairwise.sublist hs, fun t ht => h.start_lt_stop t (hs.subset ht) ?_⟩
  rw [rest_startOf] at ht
  simp at ht
  exact ht.2.2

end Parse

end JsSyntax
