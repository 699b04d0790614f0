import JsSyntax.Proofs.Sound.Moves

/-! # Two runs side by side

The same routine is run on two token lists that have a stretch in common. An `Alignment` says which
spans of the two runs correspond and what stands behind the common stretch on either side;
`A.Along s s'` says that the two runs stand at the same place of it. When both lists end with the
stretch (`A.joined`), the runs may look beyond its end, since there is nothing there. When they do
not, a run that looks there is left out of account, but for the one look that a statement takes
behind its end, whether an `else` follows, and the looks that an expression takes when a semicolon
follows it on the right (`A.Stopped`).
-/

set_option autoImplicit false

namespace JsSyntax

namespace Parse

variable {τ : Type}

/-! ## Alignments -/

/-- How two token lists are laid side by side. Spans of the two runs correspond when their images
in `τ` are the same. -/
structure Alignment (τ : Type) where
  left : Span → τ
  right : Span → τ
  /-- What stands behind the common stretch on the left. -/
  leftRest : List Token
  /-- What stands behind the common stretch on the right. -/
  rightRest : List Token
  /-- Both lists end with the common stretch. -/
  joined : Prop
  /-- Failures on the left that the run on the right need not have. -/
  excused : Diagnostic → Prop
  through_eq : ∀ {a b a' b' : Span}, left a = right a' → left b = right b' →
    left (a.through b) = right (a'.through b')
  leftRest_eq_nil : joined → leftRest = []
  rightRest_eq_nil : joined → rightRest = []
  not_else : ∀ t ∈ rightRest.head?, ¬ t.isKeyword "else"

/-- How far a run may have got. -/
inductive Reach where
  /-- A token of the common stretch is ahead, or the end that both runs have. -/
  | inside
  /-- Nothing behind the common stretch has been read. -/
  | whole

namespace Alignment

theorem not_else_nil : ∀ t ∈ ([] : List Token).head?, ¬ t.isKeyword "else" :=
  fun _ h => absurd h (Option.not_mem_none _)

/-- Nothing stands behind the common stretch. -/
def full (left right : Span → τ)
    (through_eq : ∀ {a b a' b' : Span}, left a = right a' → left b = right b' →
      left (a.through b) = right (a'.through b')) : Alignment τ where
  left := left
  right := right
  leftRest := []
  rightRest := []
  joined := True
  excused _ := False
  through_eq := through_eq
  leftRest_eq_nil _ := rfl
  rightRest_eq_nil _ := rfl
  not_else := not_else_nil

/-- Each list goes on behind the common stretch in its own way. -/
def forked (left right : Span → τ) (leftRest rightRest : List Token) (excused : Diagnostic → Prop)
    (through_eq : ∀ {a b a' b' : Span}, left a = right a' → left b = right b' →
      left (a.through b) = right (a'.through b'))
    (not_else : ∀ t ∈ rightRest.head?, ¬ t.isKeyword "else") : Alignment τ where
  left := left
  right := right
  leftRest := leftRest
  rightRest := rightRest
  joined := False
  excused := excused
  through_eq := through_eq
  leftRest_eq_nil := False.elim
  rightRest_eq_nil := False.elim
  not_else := not_else

variable (A : Alignment τ)

/-- The tokens differ in their place only. -/
structure Same (t t' : Token) : Prop where
  kind : t.kind = t'.kind
  value : t.value = t'.value
  span : A.left t.span = A.right t'.span

/-- The token can neither be a modifier nor start a function. -/
def Fence (t : Token) : Prop := t.kind ≠ .identifier ∧ t.kind ≠ .keyword

/-- On the right a semicolon stands behind the common stretch. No expression goes on with it, and a
word in front of it is a name. -/
def Stopped : Prop := ∃ t ∈ A.rightRest.head?, t.isPunctuation ";"

/-- The lists ahead have the rest of the common stretch in common. Its last token is a fence, unless
nothing or a semicolon stands behind it on the right. -/
inductive Aligned : List Token → List Token → Prop where
  | done : Aligned A.leftRest A.rightRest
  | token {t t' : Token} {r r' : List Token} : A.Same t t' →
      (A.joined ∨ A.Stopped ∨ (r.length = A.leftRest.length → Fence t)) → Aligned r r' →
      Aligned (t :: r) (t' :: r')

/-- The two runs stand at the same place. -/
structure Along (s s' : State) : Prop where
  aligned : A.Aligned s.rest s'.rest
  closing : A.joined → A.left s.closing.span = A.right s'.closing.span

/-- The run on the left has got no further. -/
def At : Reach → State → Prop
  | .inside, s => A.joined ∨ A.leftRest.length < s.rest.length
  | .whole, s => A.joined ∨ A.leftRest.length ≤ s.rest.length

/-- Where a run gets no further than `r`, an expression may end. -/
class Ends (r : Reach) : Prop where
  stopped : r = .whole → A.joined ∨ A.Stopped

instance : A.Ends .inside := ⟨nofun⟩

/-- One token of the common stretch is ahead, and behind it the semicolon on the right. -/
structure Brink (s s' : State) : Prop where
  not_joined : ¬ A.joined
  length : s.rest.length = A.leftRest.length + 1
  second : s'.second.isPunctuation ";"

/-- The tokens read last correspond. -/
def Last (s s' : State) : Prop :=
  s.last.map (fun t => A.left t.span) = s'.last.map fun t => A.right t.span

/-- The tokens read last correspond, or some token is ahead. -/
def Ready (s s' : State) : Prop := A.Last s s' ∨ s.current.kind ≠ .eof

/-- The same fault is reported at corresponding places. -/
def Report (e e' : Diagnostic) : Prop :=
  ∃ fault sp sp', A.left sp = A.right sp' ∧ e = Fault.report fault sp.start ∧
    e' = fault.report sp'.start

/-- The nodes differ in their spans only, and those correspond. -/
def Alike {N : Type → Type} (map : {σ τ : Type} → (σ → τ) → N σ → N τ) (a a' : N Span) : Prop :=
  map A.left a = map A.right a'

variable {A}

/-! ## Places -/

theorem At.of_le {r : Reach} {s s' : State} (h : A.At r s') (hle : s'.rest.length ≤ s.rest.length) :
    A.At r s := by
  cases r with
  | inside => exact h.imp_right fun h => Nat.lt_of_lt_of_le h hle
  | whole => exact h.imp_right fun h => Nat.le_trans h hle

theorem At.whole {r : Reach} {s : State} (h : A.At r s) : A.At .whole s := by
  cases r with
  | inside => exact h.imp_right Nat.le_of_lt
  | whole => exact h

theorem At.to {s : State} (h : A.At .inside s) (r : Reach) : A.At r s := by
  cases r with
  | inside => exact h
  | whole => exact h.whole

theorem At.inside_of_lt {r : Reach} {s s' : State} (h : A.At r s')
    (hlt : s'.rest.length < s.rest.length) : A.At .inside s :=
  h.whole.imp_right fun h => Nat.lt_of_le_of_lt h hlt

theorem Aligned.length {r r' : List Token} (h : A.Aligned r r') :
    r.length + A.rightRest.length = r'.length + A.leftRest.length := by
  induction h with
  | done => exact Nat.add_comm _ _
  | token _ _ _ ih =>
    simp only [List.length_cons]
    omega

/-- In the common stretch both runs have the same token ahead, unless both are at the end. -/
theorem Along.cases {s s' : State} (h : A.Along s s') (hs : A.At .inside s) :
    (A.joined ∧ s.rest = [] ∧ s'.rest = []) ∨ ∃ t t' r r', s.rest = t :: r ∧ s'.rest = t' :: r' ∧
      A.Same t t' ∧ (A.joined ∨ A.Stopped ∨ (r.length = A.leftRest.length → Fence t)) ∧
      A.Aligned r r' := by
  obtain ⟨haligned, -⟩ := h
  generalize hr : s.rest = r, hr' : s'.rest = r' at haligned
  cases haligned with
  | done =>
    rcases hs with hj | hlt
    · exact .inl ⟨hj, A.leftRest_eq_nil hj, A.rightRest_eq_nil hj⟩
    · exact absurd hlt (by rw [hr]; exact Nat.lt_irrefl _)
  | @token t t' r r' ht hfence hrest => exact .inr ⟨t, t', r, r', rfl, rfl, ht, hfence, hrest⟩

theorem same_closing {s s' : State} (h : A.Along s s') (hj : A.joined) :
    A.Same s.closing s'.closing :=
  ⟨rfl, rfl, h.closing hj⟩

theorem Along.current {s s' : State} (h : A.Along s s') (hs : A.At .inside s) :
    A.Same s.current s'.current := by
  obtain ⟨hj, hr, hr'⟩ | ⟨t, t', r, r', hr, hr', ht, -⟩ := h.cases hs
  · simpa [State.current, hr, hr'] using same_closing h hj
  · simpa [State.current, hr, hr'] using ht

/-- Both runs see the same second token, or the last token of the common stretch is ahead. -/
theorem Along.second {s s' : State} (h : A.Along s s') (hs : A.At .inside s) :
    A.Same s.second s'.second ∨ Fence s.current ∨ A.Brink s s' := by
  obtain ⟨hj, hr, hr'⟩ | ⟨t, t', r, r', hr, hr', -, hlast, haligned⟩ := h.cases hs
  · exact .inl (by simpa [State.second, hr, hr'] using same_closing h hj)
  cases haligned with
  | token ht _ _ => exact .inl (by simpa [State.second, hr, hr'] using ht)
  | done =>
    by_cases hj : A.joined
    · have := same_closing h hj
      exact .inl (by
        simpa [State.second, hr, hr', A.leftRest_eq_nil hj, A.rightRest_eq_nil hj] using this)
    rcases hlast.resolve_left hj with ⟨x, hx, hsemi⟩ | hfence
    · refine .inr (.inr ⟨hj, ?_, ?_⟩)
      · rw [hr, List.length_cons]
      · obtain ⟨rest, hrest⟩ := List.head?_eq_some_iff.1 hx
        simpa [State.second, hr', hrest] using hsemi
    · exact .inr (.inl (by simpa [State.current, hr] using hfence rfl))

theorem Brink.not_inside {s s' s₁ : State} (h : A.Brink s s')
    (hlt : s₁.rest.length < s.rest.length) : ¬ A.At .inside s₁ := by
  rintro (hj | hin)
  · exact h.not_joined hj
  · have := h.length
    omega

theorem Brink.not_whole {s s' s₁ : State} (h : A.Brink s s')
    (hlt : s₁.rest.length + 1 < s.rest.length) : ¬ A.At .whole s₁ := by
  rintro (hj | hin)
  · exact h.not_joined hj
  · have := h.length
    omega

theorem Along.atEnd {s s' : State} (h : A.Along s s') (hs : A.At .inside s) :
    s.atEnd = s'.atEnd := by
  obtain ⟨-, hr, hr'⟩ | ⟨t, t', r, r', hr, hr', -⟩ := h.cases hs <;> simp [State.atEnd, hr, hr']

theorem Aligned.length_le {r r' : List Token} (h : A.Aligned r r') :
    A.leftRest.length ≤ r.length := by
  induction h with
  | done => exact Nat.le_refl _
  | token _ _ _ ih => exact Nat.le_trans ih (Nat.le_succ _)

/-- Behind the common stretch each run has ahead what stands there. -/
theorem Along.edge {s s' : State} (h : A.Along s s') (hs : ¬ A.At .inside s) :
    s.rest = A.leftRest ∧ s'.rest = A.rightRest := by
  obtain ⟨hnj, hle⟩ := not_or.1 hs
  obtain ⟨haligned, -⟩ := h
  generalize hr : s.rest = r, hr' : s'.rest = r' at haligned
  cases haligned with
  | done => exact ⟨rfl, rfl⟩
  | token _ _ haligned =>
    have := haligned.length_le
    rw [hr, List.length_cons] at hle
    omega

/-- Behind the common stretch no `else` stands on the right. -/
theorem Along.not_else {s s' : State} (h : A.Along s s') (hs : ¬ A.At .inside s) :
    ¬ s'.current.isKeyword "else" := by
  unfold State.current
  rw [(h.edge hs).2]
  cases hhead : A.rightRest with
  | nil => simp [Token.isKeyword, Token.is]
  | cons t rest => exact A.not_else t (by simp [hhead])

/-- Where an expression may end, a semicolon stands behind the common stretch on the right. -/
theorem Along.semicolon [he : A.Ends .whole] {s s' : State} (h : A.Along s s')
    (hs : ¬ A.At .inside s) : s'.current.isPunctuation ";" := by
  obtain ⟨x, hx, hsemi⟩ := (he.stopped rfl).resolve_left (not_or.1 hs).1
  obtain ⟨rest, hrest⟩ := List.head?_eq_some_iff.1 hx
  simpa [State.current, (h.edge hs).2, hrest] using hsemi

/-- Tokens that have been logged make no difference. -/
theorem Along.withEvents {s s' : State} (h : A.Along s s') (es es' : List Event) :
    A.Along { s with events := es } { s' with events := es' } :=
  ⟨h.aligned, h.closing⟩

/-! ## Reading -/

theorem same_span {s s' : State} {start start' : Span} (h : A.Last s s')
    (hstart : A.left start = A.right start') :
    A.left (s.spanFrom start) = A.right (s'.spanFrom start') := by
  unfold Last at h
  unfold State.spanFrom
  cases hl : s.last with
  | none =>
    cases hl' : s'.last with
    | none => exact hstart
    | some t' => simp [hl, hl'] at h
  | some t =>
    cases hl' : s'.last with
    | none => simp [hl, hl'] at h
    | some t' => exact A.through_eq hstart (by simpa [hl, hl'] using h)

/-- Both runs read the same token, or stay at the end. -/
theorem Along.advance {s s' : State} (h : A.Along s s') (hs : A.At .inside s) :
    ∃ t t' s₁ s₁', Parse.advance s = .ok t s₁ ∧ Parse.advance s' = .ok t' s₁' ∧ A.Same t t' ∧
      A.Along s₁ s₁' ∧ A.At .whole s₁ ∧ (A.Ready s s' → A.Last s₁ s₁') := by
  obtain ⟨hj, hr, hr'⟩ | ⟨t, t', r, r', hr, hr', ht, -, haligned⟩ := h.cases hs
  · refine ⟨s.closing, s'.closing, s, s', ?_, ?_, same_closing h hj, h, .inl hj, ?_⟩
    · simp [Parse.advance, hr]
    · simp [Parse.advance, hr']
    · exact fun hready => hready.resolve_right (by simp [State.current, hr])
  · refine ⟨t, t', { s with last := some t, rest := r }, { s' with last := some t', rest := r' },
      ?_, ?_, ht, ⟨haligned, h.closing⟩, ?_, fun _ => ?_⟩
    · simp [Parse.advance, hr]
    · simp [Parse.advance, hr']
    · exact hs.imp_right fun hlt => by rw [hr] at hlt; exact Nat.le_of_lt_succ hlt
    · simp [Last, ht.span]

end Alignment

end Parse

end JsSyntax
