import JsSyntax.Proofs.Token.Splice

/-! # What a cursor keeps

A cursor counts bytes, lines and columns one character at a time. `Cursor.Tracks source c` says that
the three counters of `c` agree with the text they stand for: the offset is a boundary between two
characters, the text passed and the text ahead are the source, and line and column are those of
`Position.ofOffset`, which reads them off the text before an offset.

A `Cursor.Session` is what a scanner does with a cursor: it moves it on, and it goes back to copies
it has kept. Every cursor of a session stands between two parts of the source (`Cursor.Divides`),
whatever was done before, and everything else follows from that (`Cursor.Divides.tracks`).
-/

set_option autoImplicit false

namespace JsSyntax

open String (utf8Len)

/-! ## Positions read off the text -/

namespace Position

/-- The position at a byte offset of a source: its line is one more than the line feeds before it,
its column one more than the characters since the last of them. -/
def ofOffset (source : String) (offset : Nat) : Position :=
  let before := (slice source 0 offset).toList
  ⟨offset, 1 + before.count '\n', 1 + (before.reverse.takeWhile (· ≠ '\n')).length⟩

theorem column_advanceBy_first (cs : List Char) :
    (first.advanceBy cs).column = 1 + (cs.reverse.takeWhile (· ≠ '\n')).length := by
  induction cs using List.reverseRecOn with
  | nil => rfl
  | append_singleton cs c ih =>
    rw [advanceBy_append, advanceBy_cons, advanceBy_nil, List.reverse_concat]
    unfold advance
    split
    · next h => simp [h]
    · next h => simp [h, ih, Nat.add_assoc]

theorem slice_zero_of_append {source : String} {before behind : List Char}
    (h : source.toList = before ++ behind) :
    slice source 0 (utf8Len before) = String.ofList before :=
  slice_of_append (show source.toList = [] ++ (before ++ behind) from h) rfl (Nat.zero_add _).symm

/-- Counting along a text comes to the position that is read off it. -/
theorem advanceBy_first {source : String} {before behind : List Char}
    (h : source.toList = before ++ behind) :
    first.advanceBy before = ofOffset source (utf8Len before) := by
  have hoffset : (first.advanceBy before).offset = utf8Len before := by
    rw [offset_advanceBy]
    exact Nat.zero_add _
  have hline : (first.advanceBy before).line = 1 + before.count '\n' := line_advanceBy ..
  have hcolumn := column_advanceBy_first before
  have htext := congrArg String.toList (slice_zero_of_append h)
  rw [String.toList_ofList] at htext
  simp only [ofOffset, htext]
  rw [← hoffset, ← hline, ← hcolumn]

end Position

/-! ## Counters of 32 bits -/

/-- One more, unless that goes beyond 32 bits. -/
def increment? (n : Nat) : Option Nat :=
  if n + 1 < UInt32.size then some (n + 1) else none

/-- The position after `c` at `p`, if line and column can be counted in 32 bits. -/
def Position.advance? (p : Position) (c : Char) : Option Position :=
  if c = '\n' then (increment? p.line).map (⟨p.offset + c.utf8Size, ·, 1⟩)
  else (increment? p.column).map (⟨p.offset + c.utf8Size, p.line, ·⟩)

theorem Position.advance?_eq {p : Position} (c : Char) (hline : p.line + 1 < UInt32.size)
    (hcolumn : p.column + 1 < UInt32.size) : p.advance? c = some (p.advance c) := by
  unfold advance? advance
  split <;> simp [increment?, hline, hcolumn]

namespace Cursor

/-- `advance` with counters of 32 bits. -/
def advance? (c : Cursor) : Option Cursor :=
  match c.rest with
  | [] => some c
  | ch :: rest => (c.position.advance? ch).map (⟨ch :: c.past, rest, ·⟩)

/-- `advanceBy` with counters of 32 bits: nothing, if one of the additions overflows. -/
def advanceBy? (c : Cursor) : Nat → Option Cursor
  | 0 => some c
  | n + 1 => c.advance?.bind (advanceBy? · n)

/-! ## Moves and sessions -/

/-- A way to go on from a cursor. -/
inductive Move where
  | advance
  | eat (expected : Char)
  | advanceWhile (p : Char → Bool)
  | nextToken

def Move.apply (c : Cursor) : Move → Cursor
  | .advance => c.advance
  | .eat expected => (c.eat expected).2
  | .advanceWhile p => c.advanceWhile p
  | .nextToken => c.nextToken.2

inductive Operation where
  | move (m : Move)
  /-- Goes back to a copy of the cursor, the latest copy being number 0. -/
  | restore (copy : Nat)

/-- A cursor at work, with the cursors it has been before, the latest first. -/
structure Session where
  current : Cursor
  copies : List Cursor

def Session.start (source : String) : Session := ⟨ofString source, []⟩

def Session.step (s : Session) : Operation → Session
  | .move m => ⟨m.apply s.current, s.current :: s.copies⟩
  | .restore copy => ⟨s.copies.getD copy s.current, s.current :: s.copies⟩

def Session.run (s : Session) (ops : List Operation) : Session := ops.foldl step s

/-! ## A cursor divides its source -/

/-- The cursor stands between two parts of the source, and its position is counted along the first
of them. -/
structure Divides (source : String) (c : Cursor) : Prop where
  text : source.toList = c.past.reverse ++ c.rest
  position : c.position = Position.first.advanceBy c.past.reverse

theorem divides_ofString (source : String) : (ofString source).Divides source := ⟨rfl, rfl⟩

namespace Divides

variable {source : String} {c : Cursor}

theorem advance (h : c.Divides source) : c.advance.Divides source := by
  unfold Cursor.advance
  split
  · exact h
  · next ch rest hrest =>
    constructor
    · simp [h.text, hrest]
    · simp [h.position]

theorem advanceBy (h : c.Divides source) (n : Nat) : (c.advanceBy n).Divides source := by
  induction n generalizing c with
  | zero => exact h
  | succ n ih => exact ih h.advance

end Divides

/-! ## Every move is so many single steps -/

theorem advance_add (c : Cursor) (m n : Nat) :
    c.advanceBy (m + n) = (c.advanceBy m).advanceBy n := by
  induction m generalizing c with
  | zero => rw [Nat.zero_add, advanceBy]
  | succ m ih => rw [Nat.succ_add, advanceBy, ih, advanceBy]

theorem exists_nextToken_eq (c : Cursor) : ∃ n, c.nextToken.2 = c.advanceBy n := by
  unfold nextToken advanceWhile
  dsimp only
  split
  · exact ⟨_, rfl⟩
  · exact ⟨_, (c.advance_add ..).symm⟩

theorem Move.exists_apply_eq (m : Move) (c : Cursor) : ∃ n, m.apply c = c.advanceBy n := by
  cases m with
  | advance => exact ⟨1, rfl⟩
  | eat expected =>
    rw [apply, Cursor.eat]
    split
    · exact ⟨1, rfl⟩
    · exact ⟨0, rfl⟩
  | advanceWhile p => exact ⟨_, rfl⟩
  | nextToken => exact c.exists_nextToken_eq

/-! ## Sessions -/

theorem Divides.apply {source : String} {c : Cursor} (h : c.Divides source) (m : Move) :
    (m.apply c).Divides source := by
  obtain ⟨n, hn⟩ := m.exists_apply_eq c
  exact hn ▸ h.advanceBy n

/-- Every cursor of the session divides the source. -/
def Session.Divides (source : String) (s : Session) : Prop :=
  ∀ c ∈ s.current :: s.copies, c.Divides source

theorem Session.Divides.step {source : String} {s : Session} (h : s.Divides source)
    (op : Operation) : (s.step op).Divides source := by
  have hcurrent := h s.current List.mem_cons_self
  cases op with
  | move m => exact List.forall_mem_cons.2 ⟨hcurrent.apply m, h⟩
  | restore copy =>
    refine List.forall_mem_cons.2 ⟨?_, h⟩
    rw [Session.step, List.getD_eq_getElem?_getD]
    cases hcopy : s.copies[copy]? with
    | none => exact hcurrent
    | some c => exact h c (List.mem_cons_of_mem _ (List.mem_of_getElem? hcopy))

theorem Session.Divides.run {source : String} {s : Session} (h : s.Divides source)
    (ops : List Operation) : (s.run ops).Divides source := by
  induction ops generalizing s with
  | nil => exact h
  | cons op ops ih => exact ih (h.step op)

theorem Session.divides_start (source : String) : (start source).Divides source := by
  simpa [Session.Divides, start] using divides_ofString source

end Cursor

/-! ## What follows for the counters -/

/-- The cursor and its counters agree with the source. -/
structure Cursor.Tracks (source : String) (c : Cursor) : Prop where
  boundary : String.Pos.Raw.IsValid source ⟨c.position.offset⟩
  offset_le : c.position.offset ≤ source.utf8ByteSize
  passed : c.sliceFrom 0 = slice source 0 c.position.offset
  ahead : c.restText = slice source c.position.offset source.utf8ByteSize
  whole : c.sliceFrom 0 ++ c.restText = source
  isAtEnd_iff_offset : c.isAtEnd ↔ source.utf8ByteSize ≤ c.position.offset
  isAtEnd_iff_rest : c.isAtEnd ↔ c.restText = ""
  isAtEnd_iff_peek : c.isAtEnd ↔ c.peek? = none
  position : c.position = .ofOffset source c.position.offset
  /-- Every move is so many single steps, and no addition of theirs overflows. -/
  counted : ∀ m : Move, ∃ n, c.advanceBy? n = some (m.apply c)

/-- The line and the column at both ends of a token are those of the offsets there. -/
structure Token.Placed (source : String) (t : Token) : Prop where
  start : t.span.start = .ofOffset source t.span.start.offset
  stop : t.span.stop = .ofOffset source t.span.stop.offset

namespace Cursor.Divides

variable {source : String} {c : Cursor}

theorem offset (h : c.Divides source) : c.position.offset = utf8Len c.past.reverse := by
  rw [h.position, Position.offset_advanceBy]
  exact Nat.zero_add _

theorem position_eq (h : c.Divides source) : c.position = .ofOffset source c.position.offset := by
  rw [h.offset, ← Position.advanceBy_first h.text, h.position]

theorem length_past (h : c.Divides source) : c.past.length + c.rest.length = source.length := by
  rw [← String.length_toList, h.text, List.length_append, List.length_reverse]

/-- No counter is ahead of the number of characters. -/
theorem line_le (h : c.Divides source) : c.position.line ≤ 1 + c.past.length := by
  rw [h.position, Position.line_advanceBy, ← c.past.length_reverse]
  exact Nat.add_le_add_left List.count_le_length 1

theorem column_le (h : c.Divides source) : c.position.column ≤ 1 + c.past.length := by
  rw [h.position, Position.column_advanceBy_first, List.reverse_reverse]
  exact Nat.add_le_add_left (List.takeWhile_prefix _).length_le 1

section

variable (hlength : source.length < 2 ^ 32 - 1)
include hlength

theorem advance?_eq (h : c.Divides source) : c.advance? = some c.advance := by
  unfold advance? Cursor.advance
  cases hrest : c.rest with
  | nil => rfl
  | cons ch rest =>
    have hpast := h.length_past
    rw [hrest, List.length_cons] at hpast
    have hline := h.line_le
    have hcolumn := h.column_le
    have hsize : UInt32.size = 2 ^ 32 := rfl
    dsimp only
    rw [Position.advance?_eq ch (by omega) (by omega), Option.map_some]

theorem advanceBy?_eq (h : c.Divides source) (n : Nat) :
    c.advanceBy? n = some (c.advanceBy n) := by
  induction n generalizing c with
  | zero => rfl
  | succ n ih =>
    rw [advanceBy?, advance?_eq hlength h, Option.bind_some, ih h.advance, Cursor.advanceBy]

theorem tracks (h : c.Divides source) : c.Tracks source := by
  have hsource : source = String.ofList c.past.reverse ++ String.ofList c.rest := by
    rw [← String.ofList_append, ← h.text, String.ofList_toList]
  have hsize : source.utf8ByteSize = c.position.offset + utf8Len c.rest := by
    rw [← utf8Len_toList, h.text, String.utf8Len_append, h.offset]
  have hend : c.isAtEnd ↔ c.rest = [] := List.isEmpty_iff
  have hpassed : c.sliceFrom 0 = String.ofList c.past.reverse := by simp [sliceFrom, dropBytes?]
  exact {
    boundary := by
      refine String.Pos.Raw.isValid_iff_exists_append.2 ⟨_, _, hsource, ?_⟩
      ext
      rw [h.offset]
      exact (String.utf8ByteSize_ofList _).symm
    offset_le := hsize ▸ Nat.le_add_right ..
    passed := by rw [hpassed, h.offset, Position.slice_zero_of_append h.text]
    ahead := by
      have htext : source.toList = c.past.reverse ++ (c.rest ++ []) := by
        rw [List.append_nil, h.text]
      rw [hsize, slice_of_append htext h.offset rfl, restText]
    whole := by rw [hpassed, restText, ← hsource]
    isAtEnd_iff_offset := by
      rw [hend, hsize, ← String.utf8Len_eq_zero]
      omega
    isAtEnd_iff_rest := by rw [hend, restText, String.ofList_eq_empty_iff]
    isAtEnd_iff_peek := by rw [hend, peek?, List.head?_eq_none_iff]
    position := h.position_eq
    counted := fun m => by
      obtain ⟨n, hn⟩ := m.exists_apply_eq c
      exact ⟨n, by rw [advanceBy?_eq hlength h, hn]⟩ }

end

/-! ## Tokens -/

/-- A token is placed where the cursor has been. -/
theorem placed_nextToken (h : c.Divides source) : c.nextToken.1.Placed source := by
  have hstart := h.apply (.advanceWhile isBlank)
  unfold nextToken
  dsimp only
  split
  · exact ⟨hstart.position_eq, hstart.position_eq⟩
  · exact ⟨hstart.position_eq, (hstart.advanceBy _).position_eq⟩

theorem placed_tokens (h : c.Divides source) (fuel : Nat) :
    ∀ t ∈ c.tokens fuel, t.Placed source := by
  induction fuel generalizing c with
  | zero => simpa [tokens] using h.placed_nextToken
  | succ fuel ih =>
    rw [tokens]
    dsimp only
    split
    · simpa using h.placed_nextToken
    · exact List.forall_mem_cons.2 ⟨h.placed_nextToken, ih (h.apply .nextToken)⟩

end Cursor.Divides

/-- Whatever moves a cursor makes over a source, and whatever copies of it come back, it keeps in
step with the text, and so do the tokens it reads. -/
theorem Cursor.Session.run_tracks (source : String) (hlength : source.length < 2 ^ 32 - 1) :
    (∀ ops, ∀ c ∈ ((start source).run ops).current :: ((start source).run ops).copies,
      c.Tracks source ∧ c.nextToken.1.Placed source) ∧
    ∀ t ∈ tokenize source, t.Placed source := by
  refine ⟨fun ops c hc => ?_, (divides_ofString source).placed_tokens source.length⟩
  have h := (divides_start source).run ops c hc
  exact ⟨h.tracks hlength, h.placed_nextToken⟩

/-- A text of two lines with a character of four bytes in the second. -/
theorem Cursor.Session.run_tracks_two_lines :
    "a\n😀b".length < 2 ^ 32 - 1 ∧
    (∀ ops, ∀ c ∈ ((start "a\n😀b").run ops).current :: ((start "a\n😀b").run ops).copies,
      c.Tracks "a\n😀b" ∧ c.nextToken.1.Placed "a\n😀b") ∧
    ∀ t ∈ tokenize "a\n😀b", t.Placed "a\n😀b" :=
  have h : "a\n😀b".length < 2 ^ 32 - 1 := by decide
  ⟨h, run_tracks _ h⟩

end JsSyntax
