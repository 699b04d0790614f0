import JsSyntax.Proofs.Follow.Alignment

/-! # Routines that follow each other

`A.Follows r₀ r pre V m m'`: from states that stand at the same place and are related by `pre`, the
routine `m'` does on the right what `m` does on the left. `r₀` says how far the run on the left has
got at the start, and only runs on the left that have got no further than `r` at the end are taken
into account. A failure on the left counts while the common stretch lasts.
-/

set_option autoImplicit false

namespace JsSyntax

namespace Parse

variable {τ α β : Type}

/-! ## How far a routine goes -/

/-- However the routine ends, there are no more tokens ahead than before. -/
class Shrinks (m : ParseM α) : Prop where
  le : ∀ s, (after (m s)).rest.length ≤ s.rest.length

namespace Shrinks

theorem le_of_ok {m : ParseM α} [hm : Shrinks m] {s s' : State} {a : α} (h : m s = .ok a s') :
    s'.rest.length ≤ s.rest.length := by
  have := hm.le s
  rwa [h] at this

theorem le_of_error {m : ParseM α} [hm : Shrinks m] {s s' : State} {e : Diagnostic}
    (h : m s = .error e s') : s'.rest.length ≤ s.rest.length := by
  have := hm.le s
  rwa [h] at this

instance (priority := high) of_moves {m : ParseM α} [hm : Moves m] : Shrinks m := by
  refine ⟨fun s => ?_⟩
  obtain ⟨u, hu⟩ := (hm.moves s).reads
  rw [hu.length]
  omega

theorem after_bind (m : ParseM α) (f : α → ParseM β) [hf : ∀ a, Shrinks (f a)] (s : State) :
    (after ((m >>= f) s)).rest.length ≤ (after (m s)).rest.length := by
  show (after (EStateM.bind m f s)).rest.length ≤ _
  unfold EStateM.bind
  cases m s with
  | ok a s₁ => exact (hf a).le s₁
  | error e s₁ => exact Nat.le_refl _

instance bind {m : ParseM α} {f : α → ParseM β} [hm : Shrinks m] [hf : ∀ a, Shrinks (f a)] :
    Shrinks (m >>= f) :=
  ⟨fun s => Nat.le_trans (after_bind m f s) (hm.le s)⟩

/-- A choice is followed by one routine for each case. -/
instance (priority := low) bindOption {m : ParseM (Option α)} {f : Option α → ParseM β}
    [Shrinks m] [hn : Shrinks (f none)] [hs : ∀ a, Shrinks (f (some a))] : Shrinks (m >>= f) :=
  have : ∀ x, Shrinks (f x) := Option.forall.2 ⟨hn, hs⟩
  bind

instance requireUpdateTarget (e : Expr Span) : Shrinks (Parse.requireUpdateTarget e) := by
  refine ⟨fun s => ?_⟩
  unfold Parse.requireUpdateTarget
  split <;> exact Nat.le_refl _

instance target (e : Expr Span) : Shrinks (Parse.target e) := by
  refine ⟨fun s => ?_⟩
  unfold Parse.target
  cases e.toPattern <;> exact Nat.le_refl _

end Shrinks

/-- A routine that succeeds only when it has read a token. -/
class Advances (m : ParseM α) : Prop extends Shrinks m where
  lt : ∀ {s a s'}, m s = .ok a s' → s'.rest.length < s.rest.length

namespace Advances

instance bind {m : ParseM α} {f : α → ParseM β} [hm : Advances m] [hf : ∀ a, Shrinks (f a)] :
    Advances (m >>= f) where
  lt h := by
    obtain ⟨a, s₁, h₁, h₂⟩ := bind_eq_ok.mp h
    have := hm.lt h₁
    have := (hf a).le_of_ok h₂
    omega

theorem after {m : ParseM α} {f : α → ParseM β} [hm : Shrinks m] (hf : ∀ a, Advances (f a)) :
    Advances (m >>= f) where
  le := (Shrinks.bind (m := m) (f := f)).le
  lt h := by
    obtain ⟨a, s₁, h₁, h₂⟩ := bind_eq_ok.mp h
    have := hm.le_of_ok h₁
    have := (hf a).lt h₂
    omega

instance bindAfter {m : ParseM α} {f : α → ParseM β} [Shrinks m] [hf : ∀ a, Advances (f a)] :
    Advances (m >>= f) := after hf

instance map {m : ParseM α} {f : α → β} [Advances m] : Advances (f <$> m) :=
  inferInstanceAs (Advances (m >>= fun a => Pure.pure (f a)))

instance ite {c : Prop} [Decidable c] {m m' : ParseM α} [hm : Advances m] [hm' : Advances m'] :
    Advances (if c then m else m') := by
  split
  · exact hm
  · exact hm'

/-- The branch of a choice that has been made. -/
instance iteTrue {m m' : ParseM α} [hm : Advances m] :
    Advances (if true = true then m else m') := by
  rwa [if_pos rfl]

instance memberName : Advances Parse.memberName where
  lt h := by
    obtain ⟨t, hr, -⟩ := memberName_reads h
    exact hr.lt_of_ne_nil (by simp)

instance require (place : Place) : Advances (Parse.require place) where
  lt h := by
    obtain ⟨t, hr, -⟩ := require_reads h
    exact hr.lt_of_ne_nil (by simp)

end Advances

/-- A routine that gets no further than `r` has started inside. -/
class Leads (r : Reach) (m : ParseM α) : Prop extends Shrinks m where
  lt : r = .whole → ∀ {s a s'}, m s = .ok a s' → s'.rest.length < s.rest.length

instance (priority := high) Leads.inside {m : ParseM α} [Shrinks m] : Leads .inside m where
  lt := nofun

instance Leads.of_advances {r : Reach} {m : ParseM α} [hm : Advances m] : Leads r m where
  lt _ := hm.lt

namespace Alignment

variable {A : Alignment τ} {r₀ r : Reach} {pre : State → State → Prop} {V : α → α → Prop}
  {W : β → β → Prop} {m m' : ParseM α} {f f' : α → ParseM β}

theorem At.inside_of_leads {s s' : State} {a : α} [hm : Leads r m] (h : m s = .ok a s')
    (hr : A.At r s') : A.At .inside s := by
  cases r with
  | inside => exact hr.of_le (hm.le_of_ok h)
  | whole => exact hr.inside_of_lt (hm.lt rfl h)

/-! ## The relation -/

variable (A) in
/-- What the result on the right has to be, given the one on the left. -/
def Agree (r : Reach) (V : α → α → Prop) :
    EStateM.Result Diagnostic State α → EStateM.Result Diagnostic State α → Prop
  | .ok a s, result => A.At r s →
      ∃ a' s', result = .ok a' s' ∧ V a a' ∧ A.Along s s' ∧ A.Last s s'
  | .error e s, result => A.At .inside s → ¬ A.excused e →
      ∃ e' s', result = .error e' s' ∧ A.Report e e' ∧ A.Along s s'

variable (A) in
def Follows (r₀ r : Reach) (pre : State → State → Prop) (V : α → α → Prop) (m m' : ParseM α) :
    Prop :=
  ∀ ⦃s s'⦄, A.Along s s' → A.At r₀ s → pre s s' → A.Agree r V (m s) (m' s')

/-- What does not start inside does not count. -/
theorem Agree.of_inside [hm : Leads r m] {s : State} {result : EStateM.Result Diagnostic State α}
    (h : A.At .inside s → A.Agree r V (m s) result) : A.Agree r V (m s) result := by
  cases hms : m s with
  | ok a s₁ =>
    intro hr
    have := h (At.inside_of_leads hms hr)
    rw [hms] at this
    exact this hr
  | error e s₁ =>
    intro hr he
    have := h (hr.of_le (hm.le_of_error hms))
    rw [hms] at this
    exact this hr he

/-- What reads beyond the common stretch does not count. -/
theorem Agree.of_beyond {s : State} {result : EStateM.Result Diagnostic State α}
    (h : ¬ A.At .whole (after (m s))) : A.Agree r V (m s) result := by
  cases hms : m s with
  | ok a s₁ =>
    rw [hms] at h
    exact fun hr => absurd (At.whole hr) h
  | error e s₁ =>
    rw [hms] at h
    exact fun hr => absurd (At.whole hr) h

namespace Follows

theorem of_pre {pre' : State → State → Prop} (h : A.Follows r₀ r pre V m m')
    (hpre : ∀ {s s'}, pre' s s' → pre s s') : A.Follows r₀ r pre' V m m' :=
  fun _ _ hs h₀ hp => h hs h₀ (hpre hp)

/-- A run that stays inside has got no further than the end. -/
theorem of_whole (h : A.Follows r₀ .whole pre V m m') : A.Follows r₀ r pre V m m' := by
  intro s s' hs h₀ hp
  have := h hs h₀ hp
  revert this
  unfold Agree
  split
  · exact fun h hr => h hr.whole
  · exact id

theorem of_leads [Leads r m] (h : A.Follows .inside r pre V m m') : A.Follows r₀ r pre V m m' :=
  fun _ _ hs _ hp => .of_inside fun h₀ => h hs h₀ hp

/-! ## Sequences -/

theorem pure {a a' : α} (h : V a a') : A.Follows r₀ r A.Last V (pure a) (pure a') :=
  fun _ s' hs _ hl _ => ⟨a', s', rfl, h, hs, hl⟩

theorem bind_of {r₁ : Reach} (hm : A.Follows r₀ r₁ pre V m m')
    (hf : ∀ {a a'}, V a a' → A.Follows r₁ r A.Last W (f a) (f' a'))
    (hok : ∀ {a b s s'}, f a s = .ok b s' → A.At r s' → A.At r₁ s)
    (herror : ∀ {a e s s'}, f a s = .error e s' → A.At .inside s' → A.At r₁ s) :
    A.Follows r₀ r pre W (m >>= f) (m' >>= f') := by
  intro s s' hs h₀ hp
  have hm := hm hs h₀ hp
  show A.Agree r W (EStateM.bind m f s) (EStateM.bind m' f' s')
  unfold EStateM.bind
  cases hms : m s with
  | error e s₁ =>
    rw [hms] at hm
    intro h₁ he
    obtain ⟨e', s₁', hms', hreport, hs₁⟩ := hm h₁ he
    exact ⟨e', s₁', by rw [hms'], hreport, hs₁⟩
  | ok a s₁ =>
    rw [hms] at hm
    have key : A.At r₁ s₁ → ∃ a' s₁', m' s' = .ok a' s₁' ∧ A.Agree r W (f a s₁) (f' a' s₁') := by
      intro h₁
      obtain ⟨a', s₁', hms', ha, hs₁, hl₁⟩ := hm h₁
      exact ⟨a', s₁', hms', hf ha hs₁ h₁ hl₁⟩
    show A.Agree r W (f a s₁) _
    cases hfs : f a s₁ with
    | ok b s₂ =>
      intro h₂
      obtain ⟨a', s₁', hms', hagree⟩ := key (hok hfs h₂)
      rw [hfs] at hagree
      rw [hms']
      exact hagree h₂
    | error e s₂ =>
      intro h₂ he
      obtain ⟨a', s₁', hms', hagree⟩ := key (herror hfs h₂)
      rw [hfs] at hagree
      rw [hms']
      exact hagree h₂ he

/-- The common stretch goes on behind `m`. -/
theorem bind [hl : ∀ a, Leads r (f a)] (hm : A.Follows r₀ .inside pre V m m')
    (hf : ∀ {a a'}, V a a' → A.Follows .inside r A.Last W (f a) (f' a')) :
    A.Follows r₀ r pre W (m >>= f) (m' >>= f') :=
  bind_of hm hf (fun {a} _ _ _ h hr => have := hl a; At.inside_of_leads h hr)
    (fun {a} _ _ _ h hr => hr.of_le ((hl a).le_of_error h))

/-- The common stretch may end behind `m`. -/
theorem bind_whole [hl : ∀ a, Shrinks (f a)] (hm : A.Follows r₀ .whole pre V m m')
    (hf : ∀ {a a'}, V a a' → A.Follows .whole r A.Last W (f a) (f' a')) :
    A.Follows r₀ r pre W (m >>= f) (m' >>= f') :=
  bind_of hm hf (fun {a} _ _ _ h hr => hr.whole.of_le ((hl a).le_of_ok h))
    (fun {a} _ _ _ h hr => hr.whole.of_le ((hl a).le_of_error h))

/-- The common stretch may end behind `m` if it may end behind what follows. -/
theorem bind_self [hl : ∀ a, Shrinks (f a)] (hm : A.Follows r₀ r pre V m m')
    (hf : ∀ {a a'}, V a a' → A.Follows r r A.Last W (f a) (f' a')) :
    A.Follows r₀ r pre W (m >>= f) (m' >>= f') := by
  cases r with
  | inside => exact hm.bind hf
  | whole => exact hm.bind_whole hf

/-- What follows a choice is given for each choice. -/
theorem bind_option {γ : Type} {V : γ → γ → Prop} {m m' : ParseM (Option γ)}
    {g g' : Option γ → ParseM β} [hn : Shrinks (g none)] [hs : ∀ c, Shrinks (g (some c))]
    (hm : A.Follows r₀ r pre (Option.Rel V) m m')
    (hsome : ∀ {c c'}, V c c' → A.Follows r r A.Last W (g (some c)) (g' (some c')))
    (hnone : A.Follows r r A.Last W (g none) (g' none)) :
    A.Follows r₀ r pre W (m >>= g) (m' >>= g') := by
  have hl : ∀ x, Shrinks (g x) := Option.forall.2 ⟨hn, hs⟩
  refine hm.bind_self fun hx => ?_
  cases hx with
  | none => exact hnone
  | some hc => exact hsome hc

theorem map {g g' : α → β} (hm : A.Follows r₀ r pre V m m')
    (hg : ∀ {a a'}, V a a' → W (g a) (g' a')) : A.Follows r₀ r pre W (g <$> m) (g' <$> m') := by
  refine @bind_of _ _ _ A r₀ r pre V W m m' (fun a => Pure.pure (g a)) (fun a => Pure.pure (g' a)) r
    hm ?_ ?_ ?_
  · exact fun ha => pure (hg ha)
  · rintro a b s s' ⟨⟩ hr
    exact hr
  · rintro a e s s' ⟨⟩

theorem some {N : Type → Type} {map : {σ τ : Type} → (σ → τ) → N σ → N τ} {m m' : ParseM (N Span)}
    (hm : A.Follows r₀ r pre (A.Alike map) m m') :
    A.Follows r₀ r pre (A.Alike fun f => Option.map (map f)) (Option.some <$> m)
      (Option.some <$> m') :=
  hm.map fun ha => congrArg Option.some ha

theorem discard (hm : A.Follows r₀ r pre V m m') :
    A.Follows r₀ r pre (fun _ _ => True) (discard m) (discard m') :=
  map hm fun _ => trivial

theorem ite {c c' : Prop} [Decidable c] [Decidable c'] {m₁ m₁' m₂ m₂' : ParseM α} (hc : c ↔ c')
    (hyes : c → A.Follows r₀ r pre V m₁ m₁') (hno : ¬ c → A.Follows r₀ r pre V m₂ m₂') :
    A.Follows r₀ r pre V (if c then m₁ else m₂) (if c' then m₁' else m₂') := by
  by_cases h : c
  · rw [if_pos h, if_pos (hc.1 h)]
    exact hyes h
  · rw [if_neg h, if_neg (fun h' => h (hc.2 h'))]
    exact hno h

end Follows

end Alignment

end Parse

end JsSyntax
