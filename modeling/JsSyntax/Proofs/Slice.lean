import JsSyntax.Proofs.Layout
import JsSyntax.Proofs.Nested.Routines
import JsSyntax.Proofs.Token.Splice

/-! # Statements on their own

Every statement of a program, at the top level or nested in other statements and expressions, is
what the text of its span is parsed as (`parse_slice`): neither what stands around a statement nor
how deep it stands has a say in it, and its span is no longer and no shorter than it has to be.
-/

set_option autoImplicit false

namespace JsSyntax

open Parse Grammar

/-! ## Positions in a slice -/

/-- The position `q` of a source in the slice that starts at `p`. -/
def Position.within (p q : Position) : Position where
  offset := q.offset - p.offset
  line := q.line - p.line + 1
  column := if q.line = p.line then q.column - p.column + 1 else q.column

/-- Not before `p`, nor in front of it on its line. -/
def Position.Behind (p q : Position) : Prop :=
  p.offset ≤ q.offset ∧ p.line ≤ q.line ∧ (q.line = p.line → p.column ≤ q.column)

theorem Position.Behind.advance {p q : Position} (h : p.Behind q) (c : Char) :
    p.Behind (q.advance c) ∧ p.within (q.advance c) = (p.within q).advance c := by
  obtain ⟨ho, hl, hc⟩ := h
  unfold Position.advance
  split
  · refine ⟨⟨by simp; omega, by simp; omega, by simp; omega⟩, ?_⟩
    have hne : q.line + 1 ≠ p.line := by omega
    simp [within, hne]
    omega
  · refine ⟨⟨by simp; omega, hl, by simp; omega⟩, ?_⟩
    simp only [within, Position.mk.injEq, true_and]
    refine ⟨by omega, ?_⟩
    split
    · next heq =>
      have := hc heq
      omega
    · rfl

theorem Position.Behind.advanceBy {p q : Position} (h : p.Behind q) (cs : List Char) :
    p.Behind (q.advanceBy cs) ∧ p.within (q.advanceBy cs) = (p.within q).advanceBy cs := by
  induction cs generalizing q with
  | nil => exact ⟨h, rfl⟩
  | cons c cs ih =>
    obtain ⟨hc, heq⟩ := h.advance c
    obtain ⟨hcs, heq'⟩ := ih hc
    exact ⟨hcs, by rw [advanceBy_cons, heq', heq]; rfl⟩

theorem Position.behind_refl (p : Position) : p.Behind p :=
  ⟨Nat.le_refl _, Nat.le_refl _, fun _ => Nat.le_refl _⟩

theorem Position.within_self (p : Position) : p.within p = .first := by
  simp [within, first]

theorem movesText_within (p : Position) : MovesText p.within p :=
  fun cs => (p.behind_refl.advanceBy cs).2

/-! ## The stretch of a list that a stretch of a filtered list comes from -/

section
variable {α : Type} {q : α → Bool} {l u a b : List α} {x : α}

theorem exists_trim_left (h : l.filter q = x :: u) : ∃ front m, l = front ++ m ∧
    front.filter q = [] ∧ m.head? = some x ∧ m.filter q = x :: u := by
  obtain ⟨front, m, rfl, hfront, hx, hm⟩ := List.filter_eq_cons_iff.1 h
  exact ⟨front, x :: m, rfl, List.filter_eq_nil_iff.2 hfront, rfl, by simp [hx, hm]⟩

theorem exists_trim_right (h : l.filter q = u ++ [x]) : ∃ m back, l = m ++ back ∧
    back.filter q = [] ∧ m.getLast? = some x ∧ m.filter q = u ++ [x] := by
  obtain ⟨m, l', rfl, hm, hl'⟩ := List.filter_eq_append_iff.1 h
  obtain ⟨mid, back, rfl, hmid, hx, hback⟩ := List.filter_eq_cons_iff.1 hl'
  refine ⟨m ++ (mid ++ [x]), back, by simp, hback, by simp, ?_⟩
  rw [List.filter_append, List.filter_append, hm, List.filter_eq_nil_iff.2 hmid]
  simp [hx]

/-- The stretch with the same first and the same last element. -/
theorem exists_stretch (h : l.filter q = a ++ (u ++ b)) (hu : u ≠ []) : ∃ front m back,
    l = front ++ (m ++ back) ∧ m.filter q = u ∧ m.head? = u.head? ∧ m.getLast? = u.getLast? ∧
      m ≠ [] := by
  obtain ⟨front, l', rfl, -, hl'⟩ := List.filter_eq_append_iff.1 h
  obtain ⟨m, back, rfl, hm, -⟩ := List.filter_eq_append_iff.1 hl'
  obtain ⟨x, u', rfl⟩ := List.exists_cons_of_ne_nil hu
  obtain ⟨front', m, rfl, -, hhead, hm⟩ := exists_trim_left hm
  obtain ⟨u'', y, hy⟩ := List.eq_nil_or_concat (x :: u') |>.resolve_left hu
  rw [List.concat_eq_append] at hy
  obtain ⟨m, back', rfl, -, hlast, hm'⟩ := exists_trim_right (hy ▸ hm)
  have hne : m ≠ [] := by
    rintro rfl
    cases hlast
  refine ⟨front ++ front', m, back' ++ back, by simp, hm'.trans hy.symm, ?_, ?_, hne⟩
  · rw [List.head?_append_of_ne_nil m hne] at hhead
    exact hhead
  · rw [hlast, hy]
    simp

end

/-! ## The tokens of a slice -/

/-- The text from the first to the last of some tokens has these tokens. -/
theorem tokenize_slice {source : String} {before mid behind : List Token} {first last : Token}
    (h : tokenize source = before ++ (mid ++ behind)) (hfirst : mid.head? = some first)
    (hlast : mid.getLast? = some last) (hne : behind ≠ []) (hkind : first.kind ≠ .eof) :
    tokenize (slice source first.span.start.offset last.span.stop.offset) =
      (mid ++ [Token.eof last.span.stop]).map (Token.move first.span.start.within) := by
  have hlex := lexes_tokenize source
  obtain ⟨mid', hmid⟩ := List.head?_eq_some_iff.1 hfirst
  rw [h] at hlex
  obtain ⟨w, rest, hsource, -, hrest, -⟩ := hlex.take (by simp [hmid])
  rw [hmid, List.cons_append] at hrest
  obtain ⟨blanks, text, rfl, hstart, htext⟩ := hrest.drop_blanks hkind
  rw [← List.cons_append, ← hmid] at htext
  obtain ⟨text, rest, rfl, hslice, -, hstop⟩ := htext.take hne
  rw [hlast] at hstop
  have hstop : last.span.stop = first.span.start.advanceBy text := hstop
  rw [← hstop] at hslice
  have heq : slice source first.span.start.offset last.span.stop.offset = String.ofList text := by
    have htext : source.toList = (w ++ blanks) ++ (text ++ rest) := by
      rw [hsource, List.append_assoc]
    refine slice_of_append htext ?_ ?_
    · rw [hstart, ← Position.advanceBy_append, Position.offset_advanceBy]
      exact Nat.zero_add _
    · rw [hstop, Position.offset_advanceBy]
  have hmove := hslice.move (movesText_within _)
  rw [Position.within_self] at hmove
  have hlex' := lexes_tokenize (String.ofList text)
  rw [String.toList_ofList] at hlex'
  rw [heq]
  exact hlex'.unique hmove

/-- The tokens of a source but the closing one stand one behind another. -/
theorem ordered_tokenize {source : String} {us : List Token} {stop : Position}
    (h : tokenize source = us ++ [.eof stop]) (hus : ∀ t ∈ us, t.kind ≠ .eof) : Ordered us := by
  have hlex := lexes_tokenize source
  rw [h] at hlex
  exact ⟨(List.pairwise_append.1 hlex.pairwise).1,
    fun t ht => hlex.start_lt_stop t (List.mem_append_left _ ht) (hus t ht)⟩

/-! ## A statement in its slice -/

namespace Parse

/-- No part of the span is in front of `p`. -/
def From (p : Position) (s : Span) : Prop :=
  p.offset ≤ s.start.offset ∧ p.offset ≤ s.stop.offset

instance (p : Position) (s : Span) : Decidable (From p s) := inferInstanceAs (Decidable (_ ∧ _))

theorem through_within {p : Position} {a b : Span} (ha : From p a) (hb : From p b) :
    From p (a.through b) ∧
      (a.through b).move p.within = (a.move p.within).through (b.move p.within) := by
  obtain ⟨ha, ha'⟩ := ha
  obtain ⟨hb, hb'⟩ := hb
  have hoffset : ∀ q, (p.within q).offset = q.offset - p.offset := fun _ => rfl
  have hlt : b.stop.offset - p.offset < a.start.offset - p.offset ↔
      b.stop.offset < a.start.offset := by omega
  unfold Span.through
  simp only [Span.move, hoffset, hlt]
  split
  · exact ⟨⟨ha, ha'⟩, rfl⟩
  · exact ⟨⟨ha, hb'⟩, rfl⟩

/-- The tokens behind `p` up to some of them on the left, and the same tokens counted from `p` with
nothing behind them on the right. -/
def rebased (p : Position) (rest : List Token) : Alignment (Bool × Span) :=
  .forked (fun s => (From p s, s.move p.within)) (fun s => (true, s)) rest [] (fun _ => True)
    (fun ha hb => by
      obtain ⟨hfa, rfl⟩ := Prod.mk.inj ha
      obtain ⟨hfb, rfl⟩ := Prod.mk.inj hb
      obtain ⟨hfrom, hmove⟩ := through_within (of_decide_eq_true hfa) (of_decide_eq_true hfb)
      rw [hmove, decide_eq_true hfrom])
    Alignment.not_else_nil

theorem aligned_rebased {p : Position} {rest u : List Token} (hu : ∀ t ∈ u, From p t.span)
    (hfence : ∀ t ∈ u.getLast?, Alignment.Fence t) :
    (rebased p rest).Aligned (u ++ rest) (u.map (Token.move p.within)) := by
  have hsame : List.Forall₂ (rebased p rest).Same u (u.map (Token.move p.within)) :=
    List.forall₂_map_right_iff.2 <| List.forall₂_same.2 fun t ht =>
      ⟨rfl, rfl, Prod.ext (decide_eq_true (hu t ht)) rfl⟩
  have haligned := Alignment.Aligned.of_same hsame (.inr (.inr hfence))
  rwa [rebased, Alignment.forked, List.append_nil] at haligned

theorem eq_of_rebased {p : Position} {rest : List Token} {st st' : Statement Span}
    (h : (rebased p rest).Alike Statement.map st st') : st' = st.map (Span.move p.within) := by
  have h : st.map (rebased p rest).left = st'.map (rebased p rest).right := h
  have hsnd := congrArg (Statement.map Prod.snd) h
  rw [Statement.map_map, Statement.map_map] at hsnd
  exact (Statement.map_id st').symm.trans hsnd.symm

/-- What has been read as a statement is a whole program when nothing is around it. -/
theorem runs_rebased {n : Nat} {s s' t : State} {u : List Token} {p : Position}
    {st : Statement Span} (hn : n ≤ nestingLimit) (h : (level n).statement s = .ok st s')
    (hu : s.Reads u s') (hst : Derives Reading.spanned .statement u st)
    (hp : ∀ x ∈ u, From p x.span) (ht : t.rest = u.map (Token.move p.within)) :
    ∃ t', Runs (level nestingLimit) t [.ok (st.map (Span.move p.within))] t' := by
  have hne : u ≠ [] := hst.ne_nil rfl
  have hpos := List.length_pos_iff.2 hne
  have hlength := congrArg List.length hu.rest
  rw [List.length_append] at hlength
  have hs : (rebased p s'.rest).Along s t := by
    refine ⟨?_, nofun⟩
    rw [hu.rest, ht]
    refine aligned_rebased hp fun x hx => ?_
    obtain ⟨v, x', rfl, hx'⟩ := hst.ends_with_mark rfl
    obtain rfl : x' = x := by simpa using hx
    have hx' : x'.kind = .punctuation := hx'
    rw [Alignment.Fence, hx']
    decide
  have hin : (rebased p s'.rest).At .inside s := by
    refine .inr ?_
    show s'.rest.length < s.rest.length
    omega
  have hagree := Alignment.statement_agree
    (Alignment.level_deepens (.inr ⟨hn, fun _ => trivial⟩)) hs hin
  rw [h] at hagree
  obtain ⟨st', t', ht', halike, hs', -⟩ := hagree (.inr (Nat.le_refl _))
  obtain rfl := eq_of_rebased halike
  have hnil : t'.rest = [] := by
    have hlength' : s'.rest.length + 0 = t'.rest.length + s'.rest.length := hs'.aligned.length
    exact List.length_eq_zero_iff.1 (by omega)
  refine ⟨t', .statement ?_ ht' (.done hnil)⟩
  rw [ht]
  simpa using hne

end Parse

/-! ## Statements of a program -/

/-- The tokens that are parsed. -/
def parsedTokens (ts : List Token) : List Token :=
  ts.filter fun t => t.kind ≠ .comment ∧ t.kind ≠ .eof

/-- The span covers the tokens `mid` of a source. -/
structure Spans (source : String) (sp : Span) (mid : List Token) : Prop where
  tokens : ∃ front back stop, tokenize source = front ++ (mid ++ back) ++ [.eof stop] ∧
    ∀ t ∈ front ++ (mid ++ back), t.kind ≠ .eof
  covers : Reading.spanned.Covers mid sp

/-- What a span covers of the tokens that are parsed, it covers with the comments between them. -/
theorem exists_spans {source : String} {sp : Span} {u : List Token}
    (hu : u <:+: (startOf source).rest) (h : Reading.spanned.Covers u sp) :
    ∃ mid, Spans source sp mid ∧ parsedTokens mid = u ∧ mid.getLast? = u.getLast? := by
  obtain ⟨first, last, hf, hl, hspan⟩ := h
  have hne : u ≠ [] := by
    rintro rfl
    cases hf
  obtain ⟨a, b, hab⟩ := hu
  obtain ⟨us, hus, hkinds⟩ := (lexes_tokenize source).closing
  have hfilter : us.filter (fun t => t.kind ≠ .comment ∧ t.kind ≠ .eof) = a ++ (u ++ b) := by
    have hrest := rest_startOf source
    rw [hus, List.filter_append, ← hab] at hrest
    simpa [Token.eof] using hrest.symm
  obtain ⟨front, mid, back, rfl, hmid, hhead, hlast, -⟩ := exists_stretch hfilter hne
  exact ⟨mid, ⟨⟨front, back, _, hus, hkinds⟩, ⟨first, last, hhead.trans hf, hlast.trans hl, hspan⟩⟩,
    hmid, hlast⟩

namespace Spans

variable {source : String} {sp : Span} {mid : List Token} (h : Spans source sp mid)
include h

theorem ordered : Ordered mid := by
  obtain ⟨front, back, stop, htokens, hkinds⟩ := h.tokens
  exact (ordered_tokenize htokens hkinds).sublist
    ((List.sublist_append_left mid back).trans (List.sublist_append_right front _))

theorem exists_ends : ∃ first last, mid.head? = some first ∧ mid.getLast? = some last ∧
    sp = ⟨first.span.start, last.span.stop⟩ := by
  obtain ⟨first, last, hf, hl, hspan⟩ := h.covers
  exact ⟨first, last, hf, hl, hspan.trans (h.ordered.through hf hl)⟩

/-- The comments between the tokens are those within the span. -/
theorem comments : (parse source).comments.filter (Within sp ·) =
    mid.filter (·.kind = .comment) := by
  obtain ⟨front, back, stop, htokens, hkinds⟩ := h.tokens
  have hcomments : (tokenize source).filter (·.kind = .comment) =
      (front ++ (mid ++ back)).filter (·.kind = .comment) := by
    rw [htokens, List.filter_append]
    simp [Token.eof]
  show ((tokenize source).filter (·.kind = .comment)).filter (Within sp ·) = _
  rw [hcomments, List.filter_comm, filter_within (ordered_tokenize htokens hkinds) h.covers]

/-- The tokens of the text are the same, counted from its start. -/
theorem tokenize_text : tokenize (sp.text source) =
    (mid ++ [Token.eof sp.stop]).map (Token.move sp.start.within) := by
  obtain ⟨front, back, stop, htokens, hkinds⟩ := h.tokens
  obtain ⟨first, last, hf, hl, rfl⟩ := h.exists_ends
  have hfirst : first.kind ≠ .eof := hkinds first (by simp [List.mem_of_mem_head? hf])
  have hsplit : tokenize source = front ++ (mid ++ (back ++ [.eof stop])) := by
    simp only [htokens, List.append_assoc]
  exact tokenize_slice hsplit hf hl (by simp) hfirst

/-- Picking tokens by their kind, the closing one left out, picks the same in the text. -/
theorem filter_text {q : TokenKind → Bool} (hq : q .eof = false) :
    (tokenize (sp.text source)).filter (fun t => q t.kind) =
      (mid.filter fun t => q t.kind).map (Token.move sp.start.within) := by
  have heof : q (Token.eof sp.stop).kind = false := hq
  have hmap := List.filter_map (f := Token.move sp.start.within) (p := fun t => q t.kind)
    (l := mid ++ [Token.eof sp.stop])
  rw [h.tokenize_text, hmap]
  show List.map _ (List.filter (fun t => q t.kind) (mid ++ [Token.eof sp.stop])) = _
  rw [List.filter_append, List.filter_cons, heof]
  simp

/-- The parser has the same tokens ahead. -/
theorem rest_text : (startOf (sp.text source)).rest =
    (parsedTokens mid).map (Token.move sp.start.within) := by
  rw [rest_startOf]
  exact h.filter_text (q := fun k => k ≠ .comment ∧ k ≠ .eof) rfl

theorem from_start : ∀ t ∈ mid, From sp.start t.span := by
  obtain ⟨first, last, hf, -, rfl⟩ := h.exists_ends
  intro t ht
  have hle : first.span.start.offset ≤ t.span.start.offset := h.ordered.head_le hf ht
  exact ⟨hle, Nat.le_trans hle (Nat.le_of_lt (h.ordered.start_lt_stop t ht))⟩

end Spans

/-- A statement of a source has been parsed from the tokens `mid`, without the comments between
them. -/
structure Occurs (source : String) (st : Statement Span) (mid : List Token) : Prop extends
    Spans source st.span mid where
  parsed : ∃ n ≤ nestingLimit, ∃ s s', (level n).statement s = .ok st s' ∧
    s.Reads (parsedTokens mid) s'
  derives : Derives Reading.spanned .statement (parsedTokens mid) st

theorem exists_occurs {source : String} {st : Statement Span}
    (h : st ∈ (parse source).body.flatMap Statement.statements) : ∃ mid, Occurs source st mid := by
  obtain ⟨os, s₁, hruns, hparse⟩ := parseWith_runs nestingLimit source
  rw [parse, hparse] at h
  obtain ⟨top, htop, hst⟩ := List.mem_flatMap.1 h
  obtain ⟨n, hn, s, s', ⟨u₀, hu₀⟩, hok⟩ := hruns.parsedFrom ⟨[], .refl _⟩ top
    (mem_filterMap_statementOf?.1 htop) st hst
  obtain ⟨u, hu, hne, hderives⟩ := statement_reads hok
  have hinfix : u <:+: (startOf source).rest :=
    ⟨u₀, s'.rest, by rw [hu₀.rest, hu.rest, List.append_assoc]⟩
  obtain ⟨mid, hmid, rfl, -⟩ := exists_spans hinfix (statement_covers hderives)
  exact ⟨mid, hmid, ⟨n, hn, s, s', hok, hu⟩, hderives⟩

/-- The text is one statement. -/
theorem Occurs.runs_text {source : String} {st : Statement Span} {mid : List Token}
    (h : Occurs source st mid) : ∃ s, Runs (level nestingLimit) (startOf (st.span.text source))
      [.ok (st.map (Span.move st.span.start.within))] s := by
  obtain ⟨n, hn, s, s', hok, hu⟩ := h.parsed
  exact runs_rebased hn hok hu h.derives (fun t ht => h.from_start t (List.mem_filter.1 ht).1)
    h.rest_text

/-- Every statement of a program, nested ones included, is what its text is parsed as: the text has
no errors, and the comments in it are those of the source within the span. -/
theorem parse_slice (source : String) (st : Statement Span)
    (h : st ∈ (parse source).body.flatMap Statement.statements) :
    (parse (st.span.text source)).errors = [] ∧
      (parse (st.span.text source)).body = [st.map (Span.move st.span.start.within)] ∧
      (parse (st.span.text source)).comments =
        ((parse source).comments.filter (Within st.span ·)).map
          (Token.move st.span.start.within) := by
  obtain ⟨mid, hmid⟩ := exists_occurs h
  obtain ⟨os, s, hruns, hparse⟩ := parseWith_runs nestingLimit (st.span.text source)
  obtain ⟨s', hone⟩ := hmid.runs_text
  obtain ⟨rfl, -⟩ := hruns.unique hone
  rw [hmid.comments, parse, hparse]
  exact ⟨rfl, rfl, hmid.filter_text (q := fun k => k = .comment) rfl⟩

/-- The statement an `if` governs, with a comment in it. -/
theorem parse_slice_nested :
    ∃ st ∈ (parse "if (y)\n  x /**/;").body.flatMap Statement.statements,
      st.span = ⟨⟨9, 2, 3⟩, ⟨16, 2, 10⟩⟩ ∧ (parse "x /**/;").errors = [] ∧
        (parse "x /**/;").body = [st.map (Span.move st.span.start.within)] := by
  have hnested : ((parse "if (y)\n  x /**/;").body.flatMap Statement.statements)[1]?.map
      Statement.span = some ⟨⟨9, 2, 3⟩, ⟨16, 2, 10⟩⟩ := by decide +kernel
  obtain ⟨st, hst, hspan⟩ := Option.map_eq_some_iff.1 hnested
  have hmem := List.mem_of_getElem? hst
  have htext : st.span.text "if (y)\n  x /**/;" = "x /**/;" := by
    rw [hspan]
    decide +kernel
  have h := parse_slice _ st hmem
  rw [htext] at h
  exact ⟨st, hmem, hspan, h.1, h.2.1⟩

end JsSyntax
