import JsSyntax.Parse.Member
import JsSyntax.Proofs.Grammar.Reading

/-! # What the single steps read

`s.Reads u s'` says that the tokens `u` are what is read between the states `s` and `s'`. Every
step that succeeds is described by the tokens it has read: looking reads nothing, `accept` reads
one token or none, `require` one.
-/

set_option autoImplicit false

namespace JsSyntax

open Grammar

namespace Parse

variable {α β : Type}

/-! ## Stretches of tokens -/

/-- The tokens `u` are read on the way from `s` to `s'`. -/
structure State.Reads (s : State) (u : List Token) (s' : State) : Prop where
  rest : s.rest = u ++ s'.rest
  last : s'.last = u.getLast?.or s.last
  stop : s'.stop = s.stop

namespace State

variable {s s' s'' : State} {u v : List Token}

theorem Reads.refl (s : State) : s.Reads [] s := ⟨rfl, rfl, rfl⟩

theorem Reads.trans (h : s.Reads u s') (h' : s'.Reads v s'') : s.Reads (u ++ v) s'' := by
  refine ⟨?_, ?_, ?_⟩
  · rw [h.rest, h'.rest, List.append_assoc]
  · rw [h'.last, h.last, List.getLast?_append, Option.or_assoc]
  · rw [h'.stop, h.stop]

theorem Reads.length (h : s.Reads u s') : s.rest.length = u.length + s'.rest.length := by
  rw [h.rest, List.length_append]

theorem Reads.unique (h : s.Reads u s') (h' : s.Reads v s') : u = v :=
  List.append_cancel_right (h.rest.symm.trans h'.rest)

theorem Reads.closing (h : s.Reads u s') : s'.closing = s.closing := congrArg Token.eof h.stop

theorem Reads.lt_of_ne_nil (h : s.Reads u s') (hu : u ≠ []) : s'.rest.length < s.rest.length := by
  have := List.length_pos_iff.2 hu
  rw [h.length]
  omega

theorem Reads.current (h : s.Reads u s') (hu : u ≠ []) : u.head? = some s.current := by
  obtain ⟨t, u, rfl⟩ := List.exists_cons_of_ne_nil hu
  simp [State.current, h.rest]

theorem Reads.second {t : Token} (h : s.Reads [t] s') : s'.current = s.second := by
  simp [State.current, State.second, State.closing, h.rest, h.stop]

/-- The span from the first token of a stretch on covers the stretch when it has been read. -/
theorem Reads.covers (h : s.Reads u s') (hu : u ≠ []) :
    Reading.spanned.Covers u (s'.spanFrom s.current.span) := by
  refine ⟨s.current, u.getLast hu, h.current hu, List.getLast?_eq_some_getLast hu, ?_⟩
  simp [State.spanFrom, h.last, List.getLast?_eq_some_getLast hu]

@[simp] theorem kind_closing (s : State) : s.closing.kind = .eof := rfl

/-- Only the closing token has the kind of the closing token behind nothing. -/
theorem rest_eq_cons_of_kind (h : s.current.kind ≠ .eof) : ∃ rest, s.rest = s.current :: rest := by
  cases hr : s.rest with
  | nil => simp [State.current, hr] at h
  | cons t rest => exact ⟨rest, by simp [State.current, hr]⟩

end State

/-! ## Sequences -/

-- These are equations of propositions, so that a simp call takes them as they are.
theorem bind_eq_ok {x : ParseM α} {f : α → ParseM β} {s s'' : State} {b : β} :
    ((x >>= f) s = .ok b s'') = ∃ a s', x s = .ok a s' ∧ f a s' = .ok b s'' := by
  show (EStateM.bind x f s = _) = _
  unfold EStateM.bind
  cases x s with
  | ok a s' =>
    exact propext ⟨fun h => ⟨a, s', rfl, h⟩, by rintro ⟨_, _, ⟨⟩, h⟩; exact h⟩
  | error e s' => simp

/-- What follows a routine that succeeds goes on where that has stopped. -/
theorem bind_of_ok {m : ParseM α} {f : α → ParseM β} {s s' : State} {a : α}
    (h : m s = .ok a s') : (m >>= f) s = f a s' := by
  show EStateM.bind m f s = _
  unfold EStateM.bind
  rw [h]

/-- What follows a routine that fails is not reached. -/
theorem bind_of_error {m : ParseM α} {f : α → ParseM β} {s s' : State} {e : Diagnostic}
    (h : m s = .error e s') : (m >>= f) s = .error e s' := by
  show EStateM.bind m f s = _
  unfold EStateM.bind
  rw [h]

theorem map_eq_ok {x : ParseM α} {f : α → β} {s s' : State} {b : β} :
    ((f <$> x) s = .ok b s') = ∃ a, x s = .ok a s' ∧ f a = b := by
  show (EStateM.map f x s = _) = _
  unfold EStateM.map
  cases x s with
  | ok a s' =>
    exact propext ⟨by rintro ⟨⟩; exact ⟨a, rfl, rfl⟩, by rintro ⟨_, ⟨⟩, rfl⟩; rfl⟩
  | error e s' => simp

theorem discard_eq_ok {x : ParseM α} {s s' : State} {b : Unit} :
    (discard x s = .ok b s') = ∃ a, x s = .ok a s' := by
  show (((fun _ => ()) <$> x) s = _) = _
  simp [map_eq_ok]

theorem pure_eq_ok {s s' : State} {a b : α} :
    ((pure a : ParseM α) s = .ok b s') = (a = b ∧ s = s') := by
  show (EStateM.Result.ok a s = .ok b s') = _
  simp

theorem throw_ne_ok {s s' : State} {e : Diagnostic} {b : α} :
    (throw e : ParseM α) s ≠ .ok b s' := by
  intro h
  cases h

/-- What follows a choice is written once. -/
theorem ite_bind {c : Prop} [Decidable c] {x y : ParseM α} {f : α → ParseM β} :
    (if c then x >>= f else y >>= f) = (if c then x else y) >>= f := by
  split <;> rfl

/-! ## Looking -/

@[simp] theorem peek_bind (f : Token → ParseM β) (s : State) : (peek >>= f) s = f s.current s := rfl

@[simp] theorem peekSecond_bind (f : Token → ParseM β) (s : State) :
    (peekSecond >>= f) s = f s.second s := rfl

@[simp] theorem atEnd_bind (f : Bool → ParseM β) (s : State) : (atEnd >>= f) s = f s.atEnd s := rfl

@[simp] theorem isNext_bind (kind : TokenKind) (value : String) (f : Bool → ParseM β) (s : State) :
    (isNext kind value >>= f) s = f (s.current.is kind value) s := rfl

@[simp] theorem isMarkNext_bind (mark : String) (f : Bool → ParseM β) (s : State) :
    (isMarkNext mark >>= f) s = f (s.current.isPunctuation mark) s := rfl

@[simp] theorem spanFrom_bind (start : Span) (f : Span → ParseM β) (s : State) :
    (spanFrom start >>= f) s = f (s.spanFrom start) s := rfl

@[simp] theorem emit_bind (e : Event) (f : Unit → ParseM β) (s : State) :
    (emit e >>= f) s = f () { s with events := e :: s.events } := rfl

@[simp] theorem isFunctionNext_bind (f : Bool → ParseM β) (s : State) :
    (isFunctionNext >>= f) s = f (s.current.isKeyword "function" ||
      (s.current.isKeyword "async" && s.second.isKeyword "function")) s := rfl

/-! ## Reading one token -/

theorem advance_reads {s s' : State} {t : Token} (h : advance s = .ok t s')
    (hk : s.current.kind ≠ .eof) : t = s.current ∧ s.Reads [s.current] s' := by
  obtain ⟨rest, hr⟩ := State.rest_eq_cons_of_kind hk
  unfold advance at h
  rw [hr] at h
  simp only [EStateM.Result.ok.injEq] at h
  obtain ⟨rfl, rfl⟩ := h
  exact ⟨rfl, hr, rfl, rfl⟩

theorem advance_reads_of_kind {s s' : State} {t : Token} {kind : TokenKind}
    (h : advance s = .ok t s') (hk : s.current.kind = kind) (hne : kind ≠ .eof) :
    t = s.current ∧ s.Reads [s.current] s' :=
  advance_reads h (by rw [hk]; exact hne)

/-- A step that may read the next token has read it, or has left the state alone. -/
inductive Accepted (P : Token → Prop) (s : State) : Bool → State → Prop where
  | yes {s' : State} : P s.current → s.Reads [s.current] s' → Accepted P s true s'
  | no : ¬ P s.current → Accepted P s false s

theorem accept_accepted {kind : TokenKind} {value : String} {s s' : State} {b : Bool}
    (hk : kind ≠ .eof) (h : accept kind value s = .ok b s') :
    Accepted (fun t => t.kind = kind ∧ t.value = value) s b s' := by
  simp only [accept, isNext_bind] at h
  split at h
  · rename_i hc
    have hc := Token.is_iff.1 hc
    simp only [bind_eq_ok, discard_eq_ok, pure_eq_ok] at h
    obtain ⟨_, _, ⟨_, ha⟩, rfl, rfl⟩ := h
    exact .yes hc (advance_reads_of_kind ha hc.1 hk).2
  · rename_i hc
    rw [pure_eq_ok] at h
    obtain ⟨rfl, rfl⟩ := h
    exact .no fun hp => hc (Token.is_iff.2 hp)

theorem acceptMark_accepted {mark : String} {s s' : State} {b : Bool}
    (h : acceptMark mark s = .ok b s') : Accepted (Reading.spanned.IsMark · mark) s b s' :=
  accept_accepted (by decide) h

theorem acceptOperator_accepted {symbol : String} {s s' : State} {b : Bool}
    (h : acceptOperator symbol s = .ok b s') :
    Accepted (Reading.spanned.IsOperator · symbol) s b s' :=
  accept_accepted (by decide) h

theorem acceptKeyword_accepted {word : String} {s s' : State} {b : Bool}
    (h : acceptKeyword word s = .ok b s') : Accepted (Reading.spanned.IsKeyword · word) s b s' :=
  accept_accepted (by decide) h

theorem acceptWord_accepted {word : String} {s s' : State} {b : Bool}
    (h : acceptWord word s = .ok b s') : Accepted (Reading.spanned.IsWord · word) s b s' := by
  simp only [acceptWord, peek_bind] at h
  split at h
  · rename_i hc
    simp only [bind_eq_ok, discard_eq_ok, pure_eq_ok] at h
    obtain ⟨_, _, ⟨_, ha⟩, rfl, rfl⟩ := h
    have hk : s.current.kind ≠ .eof := by
      rcases hc.1 with hk | hk <;> rw [hk] <;> decide
    exact .yes hc (advance_reads ha hk).2
  · rename_i hc
    rw [pure_eq_ok] at h
    obtain ⟨rfl, rfl⟩ := h
    exact .no hc

/-- A flag that records whether a token has been read, and the tokens that were. -/
theorem Accepted.flag {P : Token → Prop} {s s' : State} {b : Bool} (h : Accepted P s b s') :
    ∃ u, s.Reads u s' ∧ Flag P b u := by
  cases h with
  | yes hp hr => exact ⟨_, hr, .on hp⟩
  | no => exact ⟨[], .refl s, .off⟩

theorem acceptModifier_flag {word : String} {s s' : State} {b : Bool}
    (h : acceptModifier word s = .ok b s') :
    ∃ u, s.Reads u s' ∧ Flag (Reading.spanned.IsWord · word) b u := by
  simp only [acceptModifier, peekSecond_bind] at h
  split at h
  · rw [pure_eq_ok] at h
    obtain ⟨rfl, rfl⟩ := h
    exact ⟨[], .refl s, .off⟩
  · exact (acceptWord_accepted h).flag

theorem require_reads {place : Place} {s s' : State} {x : Unit} (h : require place s = .ok x s') :
    ∃ t, s.Reads [t] s' ∧ Reading.spanned.IsMark t place.mark := by
  simp only [require, bind_eq_ok] at h
  obtain ⟨b, s₁, ha, h⟩ := h
  cases acceptMark_accepted ha with
  | yes hp hr =>
    obtain ⟨-, rfl⟩ := pure_eq_ok.mp h
    exact ⟨_, hr, hp⟩
  | no => exact absurd h (by simp [fail, throw_ne_ok])

/-! ## Reading one of several tokens -/

theorem nextOneOf_bind (kind : TokenKind) (symbol : α → String) (choices : List α)
    (f : Option α → ParseM β) (s : State) :
    (nextOneOf kind symbol choices >>= f) s =
      f (if s.current.kind = kind then choices.find? fun c => symbol c == s.current.value else none)
        s := rfl

theorem nextOneOf_some {kind : TokenKind} {symbol : α → String} {choices : List α} {s : State}
    {a : α} (h : (if s.current.kind = kind then choices.find? fun c => symbol c == s.current.value
      else none) = some a) : a ∈ choices ∧ s.current.kind = kind ∧ s.current.value = symbol a := by
  split at h
  · rename_i hk
    have hv := List.find?_some h
    exact ⟨List.mem_of_find?_eq_some h, hk, (beq_iff_eq.1 hv).symm⟩
  · cases h

theorem acceptOneOf_reads {kind : TokenKind} {symbol : α → String} {choices : List α}
    {s s' : State} {x : Option α} (hk : kind ≠ .eof)
    (h : acceptOneOf kind symbol choices s = .ok x s') :
    (x = none ∧ s' = s) ∨ ∃ a, x = some a ∧ a ∈ choices ∧ s.Reads [s.current] s' ∧
      s.current.kind = kind ∧ s.current.value = symbol a := by
  simp only [acceptOneOf, nextOneOf_bind] at h
  generalize ha : (if s.current.kind = kind then choices.find? fun c => symbol c == s.current.value
    else none) = x' at h
  cases x' with
  | some a =>
    simp only [bind_eq_ok, discard_eq_ok, pure_eq_ok] at h
    obtain ⟨_, _, ⟨_, hadv⟩, rfl, rfl⟩ := h
    obtain ⟨hm, hkind, hv⟩ := nextOneOf_some ha
    exact .inr ⟨a, rfl, hm, (advance_reads_of_kind hadv hkind hk).2, hkind, hv⟩
  | none =>
    rw [pure_eq_ok] at h
    obtain ⟨rfl, rfl⟩ := h
    exact .inl ⟨rfl, rfl⟩

/-! ## Names -/

theorem fail_ne_ok {fault : Fault} {s s' : State} {b : α} :
    (fail fault : ParseM α) s ≠ .ok b s' := by
  intro h
  simp [fail, throw_ne_ok] at h

theorem unexpected_ne_ok {s s' : State} {b : α} : (unexpected : ParseM α) s ≠ .ok b s' := by
  intro h
  simp only [unexpected, peek_bind] at h
  split at h <;> exact fail_ne_ok h

/-- A token covers itself. -/
theorem covers_single (t : Token) : Reading.spanned.Covers [t] t.span := by
  refine ⟨t, t, rfl, rfl, ?_⟩
  unfold Span.through
  split <;> rfl

theorem isName_iff {t : Token} : isName t = true ↔ Reading.spanned.IsName t := by
  obtain ⟨kind, value, span⟩ := t
  cases kind <;> simp [isName, Reading.IsName, Reading.spanned]

theorem identifier_reads {place : NamePlace} {s s' : State} {id : Ident Span}
    (h : identifier place s = .ok id s') :
    ∃ t, s.Reads [t] s' ∧ Reading.spanned.IsIdentifier t ∧
      id = Reading.spanned.ident t t.span := by
  simp only [identifier, peek_bind] at h
  split at h
  · rename_i hk
    simp only [bind_eq_ok, pure_eq_ok] at h
    obtain ⟨t, _, hadv, rfl, rfl⟩ := h
    obtain ⟨rfl, hr⟩ := advance_reads_of_kind hadv hk (by decide)
    exact ⟨_, hr, hk, rfl⟩
  · exact absurd h fail_ne_ok

theorem kind_ne_eof_of_isName {t : Token} (h : isName t = true) : t.kind ≠ .eof := by
  intro hk
  simp [isName, hk] at h

theorem memberName_reads {s s' : State} {id : Ident Span} (h : memberName s = .ok id s') :
    ∃ t, s.Reads [t] s' ∧ Reading.spanned.IsName t ∧ id = Reading.spanned.ident t t.span := by
  simp only [memberName, peek_bind] at h
  split at h
  · rename_i hn
    simp only [bind_eq_ok, pure_eq_ok] at h
    obtain ⟨t, _, hadv, rfl, rfl⟩ := h
    obtain ⟨rfl, hr⟩ := advance_reads hadv (kind_ne_eof_of_isName hn)
    exact ⟨_, hr, isName_iff.1 hn, rfl⟩
  · exact absurd h fail_ne_ok

end Parse

end JsSyntax
