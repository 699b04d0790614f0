import JsSyntax.Proofs.Follow.Sequences
import JsSyntax.Proofs.Map

/-! # Steps that follow each other

Looking, reading and failing on both sides of an alignment. A step that may read a token does on
both sides the same, and the routine goes on with the same choice (`Accepts`).
-/

set_option autoImplicit false

namespace JsSyntax

namespace Parse

namespace Alignment

variable {τ α β γ : Type} {A : Alignment τ} {r₀ r : Reach} {pre : State → State → Prop}
  {V : α → α → Prop} {f f' : α → ParseM β} {W : β → β → Prop}

/-! ## Looking -/

section
variable {g g' : γ → ParseM β}

variable (A) in
/-- Both sides see the same, and read nothing. -/
def Looks (m m' : ParseM γ) : Prop :=
  ∀ ⦃s s'⦄, A.Along s s' → A.At .inside s → ∃ c, m s = .ok c s ∧ m' s' = .ok c s'

theorem Looks.bind {m m' : ParseM γ} (h : A.Looks m m')
    (hg : ∀ c, A.Follows .inside r pre W (g c) (g' c)) :
    A.Follows .inside r pre W (m >>= g) (m' >>= g') := by
  intro s s' hs h₀ hp
  obtain ⟨c, hm, hm'⟩ := h hs h₀
  show A.Agree r W (EStateM.bind m g s) (EStateM.bind m' g' s')
  unfold EStateM.bind
  rw [hm, hm']
  exact hg c hs h₀ hp

theorem is_eq {t t' : Token} (h : A.Same t t') (kind : TokenKind) (value : String) :
    t.is kind value = t'.is kind value := by
  rw [Token.is, Token.is, h.kind, h.value]

theorem isNext_looks (kind : TokenKind) (value : String) :
    A.Looks (isNext kind value) (isNext kind value) := by
  intro s s' hs h₀
  refine ⟨s.current.is kind value, rfl, ?_⟩
  rw [is_eq (hs.current h₀)]
  rfl

theorem isMarkNext_looks (mark : String) : A.Looks (isMarkNext mark) (isMarkNext mark) :=
  isNext_looks ..

theorem atEnd_looks : A.Looks atEnd atEnd := by
  intro s s' hs h₀
  refine ⟨s.atEnd, rfl, ?_⟩
  rw [hs.atEnd h₀]
  rfl

theorem nextOneOf_looks (kind : TokenKind) (symbol : γ → String) (choices : List γ) :
    A.Looks (nextOneOf kind symbol choices) (nextOneOf kind symbol choices) := by
  intro s s' hs h₀
  obtain ⟨hk, hv, -⟩ := hs.current h₀
  refine ⟨_, rfl, ?_⟩
  rw [hk, hv]
  rfl

theorem not_isKeyword_of_fence {t : Token} (h : Fence t) (word : String) :
    t.isKeyword word = false := by
  simp [Token.isKeyword, Token.is, h.2]

/-- A function starts on both sides or on neither, unless it starts on the left alone because its
second keyword stands behind the common stretch. -/
theorem isFunctionNext_bind {g g' : Bool → ParseM β}
    (hg : ∀ c, A.Follows .inside r pre W (g c) (g' c))
    (hfar : ∀ {s : State}, s.current.isKeyword "async" → s.second.isKeyword "function" →
      (after (g true s)).rest.length + 1 < s.rest.length) :
    A.Follows .inside r pre W (isFunctionNext >>= g) (isFunctionNext >>= g') := by
  intro s s' hs h₀ hp
  have hcurrent := hs.current h₀
  rw [Parse.isFunctionNext_bind, Parse.isFunctionNext_bind]
  simp only [Token.isKeyword, ← is_eq hcurrent]
  simp only [← Token.isKeyword.eq_1]
  rcases hs.second h₀ with hsecond | hfence | hbrink
  · simp only [Token.isKeyword, ← is_eq hsecond]
    exact hg _ hs h₀ hp
  · simp only [not_isKeyword_of_fence hfence, Bool.false_and, Bool.or_self]
    exact hg false hs h₀ hp
  have hright : s'.second.isKeyword "function" = false := by
    simp [Token.isKeyword, Token.is, (Token.is_iff.1 hbrink.second).1]
  rw [hright, Bool.and_false, Bool.or_false]
  by_cases hleft : s.current.isKeyword "async" ∧ s.second.isKeyword "function"
  · rw [hleft.1, hleft.2, Bool.and_self, Bool.or_true]
    exact .of_beyond (hbrink.not_whole (hfar hleft.1 hleft.2))
  · rw [← Bool.and_eq_true, Bool.not_eq_true] at hleft
    rw [hleft, Bool.or_false]
    exact hg _ hs h₀ hp

end

/-- The tokens ahead are the same but for their spans. -/
theorem peek_bind_of {g g' : Token → ParseM β}
    (hg : ∀ {kind value sp sp'}, A.left sp = A.right sp' →
      A.Follows .inside r (fun s s' => pre s s' ∧ s.current.kind = kind) W
        (g ⟨kind, value, sp⟩) (g' ⟨kind, value, sp'⟩)) :
    A.Follows .inside r pre W (peek >>= g) (peek >>= g') := by
  intro s s' hs h₀ hp
  rw [Parse.peek_bind, Parse.peek_bind]
  have hcurrent := hs.current h₀
  generalize ht : s.current = t, s'.current = t' at hcurrent
  obtain ⟨kind, value, sp⟩ := t
  obtain ⟨kind', value', sp'⟩ := t'
  obtain ⟨rfl, rfl, hsp⟩ := hcurrent
  exact hg hsp hs h₀ ⟨hp, by rw [ht]⟩

theorem peek_bind {g g' : Token → ParseM β}
    (hg : ∀ {kind value sp sp'}, A.left sp = A.right sp' →
      A.Follows .inside r pre W (g ⟨kind, value, sp⟩) (g' ⟨kind, value, sp'⟩)) :
    A.Follows .inside r pre W (peek >>= g) (peek >>= g') :=
  peek_bind_of fun hsp => (hg hsp).of_pre And.left

/-- When it is known what is ahead, it need not be known what has been read. -/
theorem peek_bind_kind {g g' : Token → ParseM β}
    (hg : ∀ {kind value sp sp'}, A.left sp = A.right sp' →
      A.Follows .inside r (fun s _ => s.current.kind = kind) W
        (g ⟨kind, value, sp⟩) (g' ⟨kind, value, sp'⟩)) :
    A.Follows .inside r pre W (peek >>= g) (peek >>= g') :=
  peek_bind_of fun hsp => (hg hsp).of_pre And.right

/-- The spans from corresponding starts to the tokens read last correspond. -/
theorem spanFrom_bind {start start' : Span} {g g' : Span → ParseM β}
    (hstart : A.left start = A.right start')
    (hg : ∀ {sp sp'}, A.left sp = A.right sp' → A.Follows r₀ r A.Last W (g sp) (g' sp')) :
    A.Follows r₀ r A.Last W (spanFrom start >>= g) (spanFrom start' >>= g') := by
  intro s s' hs h₀ hl
  rw [Parse.spanFrom_bind, Parse.spanFrom_bind]
  exact hg (same_span hl hstart) hs h₀ hl

theorem emit_bind {e e' : Event} {g g' : Unit → ParseM β}
    (hg : A.Follows r₀ r pre W (g ()) (g' ()))
    (hpre : ∀ {s s' es es'}, pre s s' → pre { s with events := es } { s' with events := es' }) :
    A.Follows r₀ r pre W (emit e >>= g) (emit e' >>= g') := by
  intro s s' hs h₀ hp
  rw [Parse.emit_bind, Parse.emit_bind]
  refine hg (hs.withEvents _ _) ?_ (hpre hp)
  cases r₀ <;> exact h₀

/-! ## Failing -/

theorem throw_follows {e e' : Diagnostic} (h : A.Report e e') :
    A.Follows r₀ r pre V (throw e) (throw e') :=
  fun _ s' hs _ _ _ _ => ⟨e', s', rfl, h, hs⟩

theorem fail_follows (fault : Fault) : A.Follows .inside r pre V (fail fault) (fail fault) :=
  peek_bind fun hsp => throw_follows ⟨fault, _, _, hsp, rfl, rfl⟩

theorem unexpected_follows : A.Follows .inside r pre V unexpected unexpected := by
  refine peek_bind fun _ => ?_
  exact .ite .rfl (fun _ => fail_follows _) fun _ => fail_follows _

/-! ## Reading -/

theorem ready_of_kind {s s' : State} {kind : TokenKind} (hk : kind ≠ .eof)
    (h : s.current.kind = kind) : A.Ready s s' :=
  .inr (h ▸ hk)

theorem ready_of_kind_eq {s s' : State} {kind k : TokenKind} (hk : kind = k) (hne : k ≠ .eof)
    (h : s.current.kind = kind) : A.Ready s s' :=
  ready_of_kind (hk ▸ hne) h

theorem advance_follows : A.Follows .inside .whole A.Ready A.Same advance advance := by
  intro s s' hs h₀ hready
  obtain ⟨t, t', s₁, s₁', h, h', ht, hs₁, -, hl⟩ := hs.advance h₀
  rw [h]
  exact fun _ => ⟨t', s₁', h', ht, hs₁, hl hready⟩

theorem discard_advance_follows :
    A.Follows .inside .whole A.Ready (fun _ _ => True) (discard advance) (discard advance) :=
  advance_follows.discard

/-! ## Reading, or not -/

section
variable {g g' : γ → ParseM β} {m m' : ParseM γ} {no : γ}

variable (A) in
/-- Both sides come to the same choice. With the choice `no` nothing is read. -/
def Accepts (no : γ) (m m' : ParseM γ) : Prop :=
  ∀ ⦃s s'⦄, A.Along s s' → A.At .inside s → ∃ c s₁ s₁', m s = .ok c s₁ ∧ m' s' = .ok c s₁' ∧
    ((c = no ∧ s₁ = s ∧ s₁' = s') ∨ (c ≠ no ∧ A.Along s₁ s₁' ∧ A.At .whole s₁ ∧ A.Last s₁ s₁'))

/-- The common stretch may end behind what is read. -/
theorem Accepts.bind_whole (h : A.Accepts no m m')
    (hyes : ∀ c, c ≠ no → A.Follows .whole r A.Last W (g c) (g' c))
    (hno : A.Follows .inside r pre W (g no) (g' no)) :
    A.Follows .inside r pre W (m >>= g) (m' >>= g') := by
  intro s s' hs h₀ hp
  obtain ⟨c, s₁, s₁', hm, hm', hc⟩ := h hs h₀
  show A.Agree r W (EStateM.bind m g s) (EStateM.bind m' g' s')
  unfold EStateM.bind
  rw [hm, hm']
  rcases hc with ⟨rfl, rfl, rfl⟩ | ⟨hc, hs₁, hw, hl₁⟩
  · exact hno hs h₀ hp
  · exact hyes c hc hs₁ hw hl₁

/-- The common stretch goes on behind what is read. -/
theorem Accepts.bind (h : A.Accepts no m m') (hl : ∀ c, c ≠ no → Leads r (g c))
    (hyes : ∀ c, c ≠ no → A.Follows .inside r A.Last W (g c) (g' c))
    (hno : A.Follows .inside r pre W (g no) (g' no)) :
    A.Follows .inside r pre W (m >>= g) (m' >>= g') := by
  refine h.bind_whole (fun c hc => ?_) hno
  have := hl c hc
  exact (hyes c hc).of_leads

/-- The same is done after each choice, whether it has read something or not. -/
theorem Accepts.bind_all [hl : ∀ c, Leads r (g c)] (h : A.Accepts no m m')
    (hg : ∀ {pre} c, A.Follows .inside r pre W (g c) (g' c)) :
    A.Follows .inside r pre W (m >>= g) (m' >>= g') :=
  h.bind (fun c _ => hl c) (fun c _ => hg c) (hg no)

/-- What is known after reading is known before. -/
theorem Accepts.bind_same [hl : ∀ c, Leads r (g c)] (h : A.Accepts no m m')
    (hpre : ∀ {s s'}, A.Last s s' → pre s s')
    (hg : ∀ c, A.Follows .inside r pre W (g c) (g' c)) :
    A.Follows .inside r pre W (m >>= g) (m' >>= g') :=
  h.bind (fun c _ => hl c) (fun c _ => (hg c).of_pre hpre) (hg no)

end

theorem Accepts.bind_bool {m m' : ParseM Bool} {g g' : Bool → ParseM β}
    [hl : Leads r (g true)] (h : A.Accepts false m m')
    (hyes : A.Follows .inside r A.Last W (g true) (g' true))
    (hno : A.Follows .inside r pre W (g false) (g' false)) :
    A.Follows .inside r pre W (m >>= g) (m' >>= g') := by
  refine h.bind ?_ ?_ hno
  · rintro (_ | _) hc
    · exact absurd rfl hc
    · exact hl
  · rintro (_ | _) hc
    · exact absurd rfl hc
    · exact hyes

theorem Accepts.bind_option {m m' : ParseM (Option γ)} {g g' : Option γ → ParseM β}
    [hl : ∀ c, Leads r (g (some c))] (h : A.Accepts none m m')
    (hyes : ∀ c, A.Follows .inside r A.Last W (g (some c)) (g' (some c)))
    (hno : A.Follows .inside r pre W (g none) (g' none)) :
    A.Follows .inside r pre W (m >>= g) (m' >>= g') := by
  refine h.bind ?_ ?_ hno
  · rintro (_ | c) hc
    · exact absurd rfl hc
    · exact hl c
  · rintro (_ | c) hc
    · exact absurd rfl hc
    · exact hyes c

/-- The token ahead is read on both sides, if it is no closing token. -/
theorem accepts_advance (c : γ) {s s' : State} (hs : A.Along s s') (h₀ : A.At .inside s)
    (hk : s.current.kind ≠ .eof) : ∃ s₁ s₁',
    (discard advance >>= fun _ => pure c : ParseM γ) s = .ok c s₁ ∧
      (discard advance >>= fun _ => pure c : ParseM γ) s' = .ok c s₁' ∧
      A.Along s₁ s₁' ∧ A.At .whole s₁ ∧ A.Last s₁ s₁' := by
  obtain ⟨t, t', s₁, s₁', h, h', -, hs₁, hw, hl⟩ := hs.advance h₀
  refine ⟨s₁, s₁', ?_, ?_, hs₁, hw, hl (.inr hk)⟩
  · exact bind_eq_ok.mpr ⟨(), s₁, discard_eq_ok.mpr ⟨t, h⟩, rfl⟩
  · exact bind_eq_ok.mpr ⟨(), s₁', discard_eq_ok.mpr ⟨t', h'⟩, rfl⟩

theorem accept_accepts {kind : TokenKind} (hk : kind ≠ .eof) (value : String) :
    A.Accepts false (accept kind value) (accept kind value) := by
  intro s s' hs h₀
  simp only [accept, isNext_bind, ← is_eq (hs.current h₀)]
  by_cases h : s.current.is kind value
  · obtain ⟨s₁, s₁', h₁, h₂, h₃⟩ := accepts_advance true hs h₀
      (by rw [(Token.is_iff.1 h).1]; exact hk)
    exact ⟨true, s₁, s₁', by rw [if_pos h, h₁], by rw [if_pos h, h₂], .inr ⟨by decide, h₃⟩⟩
  · exact ⟨false, s, s', by rw [if_neg h]; rfl, by rw [if_neg h]; rfl, .inl ⟨rfl, rfl, rfl⟩⟩

theorem acceptMark_accepts (mark : String) : A.Accepts false (acceptMark mark) (acceptMark mark) :=
  accept_accepts (by decide) mark

theorem acceptOperator_accepts (symbol : String) :
    A.Accepts false (acceptOperator symbol) (acceptOperator symbol) :=
  accept_accepts (by decide) symbol

theorem acceptKeyword_accepts (word : String) :
    A.Accepts false (acceptKeyword word) (acceptKeyword word) :=
  accept_accepts (by decide) word

theorem acceptOneOf_accepts {kind : TokenKind} (hk : kind ≠ .eof) (symbol : γ → String)
    (choices : List γ) :
    A.Accepts none (acceptOneOf kind symbol choices) (acceptOneOf kind symbol choices) := by
  intro s s' hs h₀
  obtain ⟨hkind, hvalue, -⟩ := hs.current h₀
  simp only [acceptOneOf, nextOneOf_bind, ← hkind, ← hvalue]
  generalize hx : (if s.current.kind = kind then choices.find? fun c => symbol c == s.current.value
    else none) = x
  cases x with
  | none => exact ⟨none, s, s', rfl, rfl, .inl ⟨rfl, rfl, rfl⟩⟩
  | some c =>
    obtain ⟨s₁, s₁', h₁, h₂, h₃⟩ := accepts_advance (some c) hs h₀
      (by rw [(nextOneOf_some hx).2.1]; exact hk)
    exact ⟨some c, s₁, s₁', h₁, h₂, .inr ⟨Option.some_ne_none c, h₃⟩⟩

theorem acceptWord_accepts (word : String) :
    A.Accepts false (acceptWord word) (acceptWord word) := by
  intro s s' hs h₀
  obtain ⟨hkind, hvalue, -⟩ := hs.current h₀
  simp only [acceptWord, Parse.peek_bind, ← hkind, ← hvalue]
  by_cases h : (s.current.kind = .identifier ∨ s.current.kind = .keyword) ∧ s.current.value = word
  · obtain ⟨s₁, s₁', h₁, h₂, h₃⟩ := accepts_advance true hs h₀
      (by rcases h.1 with hk | hk <;> rw [hk] <;> decide)
    exact ⟨true, s₁, s₁', by rw [if_pos h, h₁], by rw [if_pos h, h₂], .inr ⟨by decide, h₃⟩⟩
  · exact ⟨false, s, s', by rw [if_neg h]; rfl, by rw [if_neg h]; rfl, .inl ⟨rfl, rfl, rfl⟩⟩

theorem pure_accepts (no : γ) : A.Accepts no (pure no) (pure no) :=
  fun s s' _ _ => ⟨no, s, s', rfl, rfl, .inl ⟨rfl, rfl, rfl⟩⟩

theorem Accepts.ite {m₁ m₁' m₂ m₂' : ParseM γ} {no : γ} {c : Prop} [Decidable c]
    (h₁ : A.Accepts no m₁ m₁') (h₂ : A.Accepts no m₂ m₂') :
    A.Accepts no (if c then m₁ else m₂) (if c then m₁' else m₂') := by
  split
  · exact h₁
  · exact h₂

/-- One choice after another. -/
theorem Accepts.orElse {m m' : ParseM α} {g g' : α → ParseM γ} {no : α} {no' : γ}
    (h : A.Accepts no m m') (hyes : ∀ c, c ≠ no → ∃ x, x ≠ no' ∧ g c = pure x ∧ g' c = pure x)
    (hno : A.Accepts no' (g no) (g' no)) : A.Accepts no' (m >>= g) (m' >>= g') := by
  intro s s' hs h₀
  obtain ⟨c, s₁, s₁', hm, hm', hc⟩ := h hs h₀
  rcases hc with ⟨rfl, rfl, rfl⟩ | ⟨hc, hread⟩
  · obtain ⟨c', s₂, s₂', hg, hg', hc'⟩ := hno hs h₀
    exact ⟨c', s₂, s₂', bind_eq_ok.mpr ⟨_, _, hm, hg⟩, bind_eq_ok.mpr ⟨_, _, hm', hg'⟩, hc'⟩
  · obtain ⟨x, hx, hg, hg'⟩ := hyes c hc
    exact ⟨x, s₁, s₁', bind_eq_ok.mpr ⟨c, s₁, hm, by rw [hg]; rfl⟩,
      bind_eq_ok.mpr ⟨c, s₁', hm', by rw [hg']; rfl⟩, .inr ⟨hx, hread⟩⟩

theorem acceptWord_of_fence {s : State} (h : Fence s.current) (word : String) :
    acceptWord word s = .ok false s := by
  rw [acceptWord, Parse.peek_bind, if_neg fun hw => hw.1.elim h.1 h.2]
  rfl

/-! ## Modifiers -/

section
variable {g g' : γ → ParseM β} {m m' : ParseM γ}

variable (A) in
/-- Both sides come to the same choice, if the common stretch lasts. -/
def Chooses (m m' : ParseM γ) : Prop :=
  ∀ ⦃s s'⦄, A.Along s s' → A.At .inside s → A.At .inside (after (m s)) →
    ∃ c s₁ s₁', m s = .ok c s₁ ∧ m' s' = .ok c s₁' ∧ A.Along s₁ s₁'

theorem Accepts.chooses {no : γ} (h : A.Accepts no m m') : A.Chooses m m' := by
  intro s s' hs h₀ _
  obtain ⟨c, s₁, s₁', hm, hm', ⟨-, rfl, rfl⟩ | ⟨-, hs₁, -⟩⟩ := h hs h₀
  · exact ⟨c, _, _, hm, hm', hs⟩
  · exact ⟨c, _, _, hm, hm', hs₁⟩

theorem Chooses.pure (c : γ) : A.Chooses (Pure.pure c) (Pure.pure c) :=
  fun s s' hs _ _ => ⟨c, s, s', rfl, rfl, hs⟩

theorem Chooses.ite {c : Prop} [Decidable c] {m₁ m₁' m₂ m₂' : ParseM γ}
    (h₁ : A.Chooses m₁ m₁') (h₂ : A.Chooses m₂ m₂') :
    A.Chooses (if c then m₁ else m₂) (if c then m₁' else m₂') := by
  split
  · exact h₁
  · exact h₂

/-- One choice after another. -/
theorem Chooses.bind {g g' : γ → ParseM α} [hl : ∀ c, Shrinks (g c)] (h : A.Chooses m m')
    (hg : ∀ c, A.Chooses (g c) (g' c)) : A.Chooses (m >>= g) (m' >>= g') := by
  intro s s' hs h₀ hin
  have hafter : A.At .inside (after (m s)) := hin.of_le (Shrinks.after_bind m g s)
  obtain ⟨c, s₁, s₁', hm, hm', hs₁⟩ := h hs h₀ hafter
  rw [hm] at hafter
  rw [bind_of_ok hm] at hin ⊢
  obtain ⟨c', s₂, s₂', hg, hg', hs₂⟩ := hg c hs₁ hafter hin
  exact ⟨c', s₂, s₂', hg, (bind_of_ok hm').trans hg', hs₂⟩

/-- The same is done after each choice. -/
theorem Chooses.bind_all [hl : ∀ c, Leads r (g c)] (h : A.Chooses m m')
    (hg : ∀ {pre} c, A.Follows .inside r pre W (g c) (g' c)) :
    A.Follows .inside r pre W (m >>= g) (m' >>= g') := by
  intro s s' hs h₀ hp
  show A.Agree r W (EStateM.bind m g s) (EStateM.bind m' g' s')
  unfold EStateM.bind
  have h := h hs h₀
  cases hms : m s with
  | error e s₁ =>
    rw [hms] at h
    intro h₁
    obtain ⟨c, s₂, s₂', hm, -⟩ := h h₁
    cases hm
  | ok c s₁ =>
    rw [hms] at h
    show A.Agree r W (g c s₁) _
    refine .of_inside fun h₁ => ?_
    obtain ⟨_, _, s₁', ⟨⟩, hm', hs₁⟩ := h h₁
    rw [hm']
    have hg : A.Follows .inside r (fun _ _ => True) W (g c) (g' c) := hg c
    exact hg hs₁ h₁ trivial

end

/-- May the token stand behind the name of a member? -/
def followsName (t : Token) : Bool :=
  t.kind = .eof || t.isOperator "=" ||
    (t.kind = .punctuation && ["(", ":", ",", "\x7d", ";"].contains t.value)

theorem acceptModifier_eq (word : String) (s : State) : acceptModifier word s =
    if followsName s.second then .ok false s else acceptWord word s := by
  simp only [acceptModifier, peekSecond_bind]
  split
  · next h => rw [if_pos (show followsName s.second from h)]; rfl
  · next h => rw [if_neg (show ¬ followsName s.second from h)]

theorem followsName_of_semicolon {t : Token} (h : t.isPunctuation ";") : followsName t := by
  obtain ⟨hk, hv⟩ := Token.is_iff.1 h
  simp [followsName, hk, hv]

/-- What the second token decides does not matter at the end of the common stretch. -/
theorem acceptModifier_chooses (word : String) :
    A.Chooses (acceptModifier word) (acceptModifier word) := by
  intro s s' hs h₀ hin
  rw [acceptModifier_eq] at hin ⊢
  rw [acceptModifier_eq]
  have hword := (acceptWord_accepts word).chooses hs h₀
  rcases hs.second h₀ with hsecond | hfence | hbrink
  · have hsame : followsName s.second = followsName s'.second := by
      simp only [followsName, Token.isOperator, is_eq hsecond, hsecond.kind, hsecond.value]
    rw [← hsame]
    split
    · exact ⟨false, s, s', rfl, rfl, hs⟩
    · next h => exact hword (by rwa [if_neg h] at hin)
  · have hfence' : Fence s'.current := by
      unfold Fence
      rw [← (hs.current h₀).kind]
      exact hfence
    rw [acceptWord_of_fence hfence, acceptWord_of_fence hfence', ite_self, ite_self]
    exact ⟨false, s, s', rfl, rfl, hs⟩
  · rw [if_pos (followsName_of_semicolon hbrink.second)]
    split
    · exact ⟨false, s, s', rfl, rfl, hs⟩
    · next h =>
      rw [if_neg h] at hin
      obtain ⟨c, s₁, -, hm, -⟩ := hword hin
      rw [hm] at hin ⊢
      cases acceptWord_accepted hm with
      | yes _ hr => exact absurd hin (hbrink.not_inside (hr.lt_of_ne_nil (by simp)))
      | no => exact ⟨false, s, s', rfl, rfl, hs⟩

/-! ## At the end of the common stretch -/

section
variable {g g' : γ → ParseM β} {m m' : ParseM γ} {no : γ}

/-- The choice `no` reads nothing, and any other choice reads a token. -/
def Consumes (no : γ) (m : ParseM γ) : Prop :=
  ∀ s, ∃ c s₁, m s = .ok c s₁ ∧ ((c = no ∧ s₁ = s) ∨ s₁.rest.length < s.rest.length)

/-- The common stretch may end in front of a choice, when it is `no` there on the right. -/
theorem Accepts.bind_edge [hl : ∀ c, Shrinks (g c)] (h : A.Accepts no m m') (hm : Consumes no m)
    (hright : ∀ {s s'}, A.Along s s' → ¬ A.At .inside s → m' s' = .ok no s')
    (hyes : ∀ c, c ≠ no → A.Follows .whole r A.Last W (g c) (g' c))
    (hno : A.Follows .whole r A.Last W (g no) (g' no)) :
    A.Follows .whole r A.Last W (m >>= g) (m' >>= g') := by
  intro s s' hs h₀ hp
  by_cases hin : A.At .inside s
  · exact h.bind_whole hyes (fun _ _ hs h₀ => hno hs h₀.whole) hs hin hp
  show A.Agree r W (EStateM.bind m g s) (EStateM.bind m' g' s')
  unfold EStateM.bind
  rw [hright hs hin]
  obtain ⟨c, s₁, hms, ⟨rfl, rfl⟩ | hlt⟩ := hm s
  · rw [hms]
    exact hno hs h₀ hp
  · -- The run on the left has read beyond the common stretch.
    rw [hms]
    refine .of_beyond fun h₁ => hin ?_
    exact h₁.inside_of_lt (Nat.lt_of_le_of_lt ((hl c).le s₁) hlt)

/-- A choice that is made where an expression may end. -/
structure Closes (no : γ) (m : ParseM γ) : Prop where
  consumes : Consumes no m
  semicolon : ∀ {s}, s.current.isPunctuation ";" → m s = .ok no s

theorem Accepts.bind_self [A.Ends r] [hl : ∀ c, Shrinks (g c)] (h : A.Accepts no m m)
    (hm : Closes no m) (hyes : ∀ c, c ≠ no → A.Follows r r A.Last W (g c) (g' c))
    (hno : A.Follows r r A.Last W (g no) (g' no)) :
    A.Follows r r A.Last W (m >>= g) (m >>= g') := by
  cases r with
  | inside => exact h.bind (fun _ _ => inferInstance) hyes hno
  | whole =>
    exact h.bind_edge hm.consumes (fun hs hin => hm.semicolon (hs.semicolon hin)) hyes hno

end

theorem Accepts.bind_bool_self [A.Ends r] {m : ParseM Bool} {g g' : Bool → ParseM β}
    [hyes : Shrinks (g true)] [hno : Shrinks (g false)] (h : A.Accepts false m m)
    (hm : Closes false m) (htrue : A.Follows r r A.Last W (g true) (g' true))
    (hfalse : A.Follows r r A.Last W (g false) (g' false)) :
    A.Follows r r A.Last W (m >>= g) (m >>= g') := by
  have : ∀ c, Shrinks (g c) := Bool.rec hno hyes
  refine h.bind_self hm ?_ hfalse
  rintro (_ | _) hc
  · exact absurd rfl hc
  · exact htrue

theorem Accepts.bind_option_self [A.Ends r] {m : ParseM (Option γ)} {g g' : Option γ → ParseM β}
    [hyes : ∀ c, Shrinks (g (some c))] [hno : Shrinks (g none)] (h : A.Accepts none m m)
    (hm : Closes none m) (hsome : ∀ c, A.Follows r r A.Last W (g (some c)) (g' (some c)))
    (hnone : A.Follows r r A.Last W (g none) (g' none)) :
    A.Follows r r A.Last W (m >>= g) (m >>= g') := by
  have : ∀ c, Shrinks (g c) := Option.forall.2 ⟨hno, hyes⟩
  refine h.bind_self hm ?_ hnone
  rintro (_ | c) hc
  · exact absurd rfl hc
  · exact hsome c

theorem discard_advance_lt {s : State} (h : s.current.kind ≠ .eof) : ∃ s₁,
    (discard advance : ParseM Unit) s = .ok () s₁ ∧ s₁.rest.length < s.rest.length := by
  obtain ⟨rest, hr⟩ := State.rest_eq_cons_of_kind h
  refine ⟨_, discard_eq_ok.mpr ⟨_, by rw [advance, hr]⟩, ?_⟩
  rw [hr]
  exact Nat.lt_succ_self _

theorem accept_consumes {kind : TokenKind} (hk : kind ≠ .eof) (value : String) :
    Consumes false (accept kind value) := by
  intro s
  simp only [accept, isNext_bind]
  split
  · next h =>
    have hkind : s.current.kind ≠ .eof := (Token.is_iff.1 h).1 ▸ hk
    obtain ⟨s₁, hadv, hlt⟩ := discard_advance_lt hkind
    exact ⟨true, s₁, bind_eq_ok.mpr ⟨(), s₁, hadv, rfl⟩, .inr hlt⟩
  · exact ⟨false, s, rfl, .inl ⟨rfl, rfl⟩⟩

theorem acceptKeyword_consumes (word : String) : Consumes false (acceptKeyword word) :=
  accept_consumes (by decide) word

theorem accept_closes {kind : TokenKind} {value : String} (hk : kind ≠ .eof)
    (hsemi : ¬ (kind = .punctuation ∧ value = ";")) : Closes false (accept kind value) := by
  refine ⟨accept_consumes hk value, fun {s} h => ?_⟩
  have hno : s.current.is kind value = false := by
    refine Bool.eq_false_iff.2 fun his => hsemi ?_
    have h := Token.is_iff.1 h
    have his := Token.is_iff.1 his
    exact ⟨his.1.symm.trans h.1, his.2.symm.trans h.2⟩
  simp only [accept, isNext_bind, hno]
  rfl

theorem acceptOneOf_closes {kind : TokenKind} (hk : kind ≠ .eof) (hp : kind ≠ .punctuation)
    (symbol : γ → String) (choices : List γ) : Closes none (acceptOneOf kind symbol choices) := by
  refine ⟨fun s => ?_, fun {s} h => ?_⟩
  · simp only [acceptOneOf, nextOneOf_bind]
    generalize hx : (if s.current.kind = kind then
      choices.find? fun c => symbol c == s.current.value else none) = x
    cases x with
    | none => exact ⟨none, s, rfl, .inl ⟨rfl, rfl⟩⟩
    | some c =>
      obtain ⟨s₁, hadv, hlt⟩ := discard_advance_lt
        (by rwa [(nextOneOf_some hx).2.1] : s.current.kind ≠ _)
      exact ⟨some c, s₁, bind_eq_ok.mpr ⟨(), s₁, hadv, rfl⟩, .inr hlt⟩
  · have hk : s.current.kind ≠ kind := by
      rw [(Token.is_iff.1 h).1]
      exact hp.symm
    simp only [acceptOneOf, nextOneOf_bind, if_neg hk]
    rfl

theorem acceptMark_closes {mark : String} (h : mark ≠ ";") : Closes false (acceptMark mark) :=
  accept_closes (by decide) fun hmark => h hmark.2

theorem acceptKeyword_closes (word : String) : Closes false (acceptKeyword word) :=
  accept_closes (by decide) fun hword => nomatch hword.1

theorem acceptOperator_closes (symbol : String) : Closes false (acceptOperator symbol) :=
  accept_closes (by decide) fun hsymbol => nomatch hsymbol.1

/-- The one look behind the end of a statement: there may be an `else` on neither side. -/
theorem acceptElse_bind {g g' : Bool → ParseM β} [hyes : Shrinks (g true)]
    [hno : Shrinks (g false)] (htrue : A.Follows .whole r A.Last W (g true) (g' true))
    (hfalse : A.Follows .whole r A.Last W (g false) (g' false)) :
    A.Follows .whole r A.Last W (acceptKeyword "else" >>= g) (acceptKeyword "else" >>= g') := by
  have : ∀ c, Shrinks (g c) := Bool.rec hno hyes
  refine (acceptKeyword_accepts "else").bind_edge (acceptKeyword_consumes _) ?_ ?_ hfalse
  · intro s s' hs hin
    have := hs.not_else hin
    unfold Token.isKeyword at this
    simp only [acceptKeyword, accept, isNext_bind, this]
    rfl
  · rintro (_ | _) hc
    · exact absurd rfl hc
    · exact htrue

theorem require_follows (place : Place) :
    A.Follows .inside .whole pre (fun _ _ => True) (require place) (require place) := by
  refine (acceptMark_accepts place.mark).bind_whole ?_ (fail_follows _)
  rintro (_ | _) hc
  · exact absurd rfl hc
  · exact .pure trivial

/-! ## Names -/

/-- The name that the token ahead is. -/
theorem advance_ident_follows :
    A.Follows .inside .whole A.Ready (A.Alike Ident.map)
      (do let t ← advance; return ⟨t.value, t.span⟩)
      (do let t ← advance; return ⟨t.value, t.span⟩) := by
  refine advance_follows.bind_whole fun ht => .pure ?_
  simp only [Alike, Ident.map, ht.value, ht.span]

theorem identifier_follows (place : NamePlace) :
    A.Follows .inside .whole pre (A.Alike Ident.map) (identifier place) (identifier place) := by
  refine peek_bind_kind fun _ => .ite .rfl (fun hk => ?_) fun _ => fail_follows _
  exact advance_ident_follows.of_pre (ready_of_kind_eq hk (by decide))

theorem memberName_follows :
    A.Follows .inside .whole pre (A.Alike Ident.map) memberName memberName := by
  refine peek_bind_kind fun _ => .ite .rfl (fun hn => ?_) fun _ => fail_follows _
  exact advance_ident_follows.of_pre (ready_of_kind (kind_ne_eof_of_isName hn))

end Alignment

end Parse

end JsSyntax
