import JsSyntax.Proofs.Parse.Steps

/-! # Routines that take what is written for them

`Takes m u stops P`: in front of the tokens `u` and a token for which `stops`, the routine `m` reads
the tokens `u` and no more, and what it returns satisfies `P`. The token behind `u` is there
because a routine looks one token ahead to find its end; `u.headD t` is the token that a routine
sees first, when `t` stands behind `u`.
-/

set_option autoImplicit false

namespace JsSyntax

namespace Parse

variable {α β : Type}

def Takes (m : ParseM α) (u : List Token) (stops : Token → Prop) (P : α → Prop) : Prop :=
  ∀ ⦃s : State⦄ ⦃t : Token⦄ ⦃rest : List Token⦄, s.rest = u ++ t :: rest → stops t →
    ∃ a s', m s = .ok a s' ∧ s'.rest = t :: rest ∧ P a

theorem current_of_rest {s : State} {t : Token} {u rest : List Token}
    (h : s.rest = u ++ t :: rest) : s.current = u.headD t := by
  cases u <;> simp [State.current, h]

theorem exists_headD_cons (v : List Token) (t : Token) (rest : List Token) :
    ∃ rest', v ++ t :: rest = v.headD t :: rest' := by
  cases v with
  | nil => exact ⟨rest, rfl⟩
  | cons x v => exact ⟨v ++ t :: rest, rfl⟩

/-! ## Single steps -/

/-- The state behind the token `x`. -/
def State.behind (s : State) (x : Token) (rest : List Token) : State :=
  { s with last := some x, rest := rest }

section
variable {s : State} {x : Token} {rest : List Token} (hs : s.rest = x :: rest)
include hs

theorem advance_of_rest : advance s = .ok x (s.behind x rest) := by
  unfold advance
  rw [hs]
  rfl

theorem discard_advance_of_rest : (discard advance : ParseM Unit) s = .ok () (s.behind x rest) := by
  show EStateM.map (fun _ => ()) advance s = _
  unfold EStateM.map
  rw [advance_of_rest hs]

theorem accept_of_is {kind : TokenKind} {value : String} (hx : x.is kind value) :
    accept kind value s = .ok true (s.behind x rest) := by
  have hcurrent : s.current = x := by simp [State.current, hs]
  rw [accept, isNext_bind, hcurrent, if_pos hx, bind_of_ok (discard_advance_of_rest hs)]
  rfl

theorem require_of_mark {place : Place} (hx : x.isPunctuation place.mark) :
    require place s = .ok () (s.behind x rest) := by
  have haccept : acceptMark place.mark s = .ok true (s.behind x rest) := accept_of_is hs hx
  rw [require, bind_of_ok haccept]
  rfl

end

/-- The choice that a token is the symbol of. -/
def chosen (kind : TokenKind) (symbol : α → String) (choices : List α) (t : Token) : Option α :=
  if t.kind = kind then choices.find? fun c => symbol c == t.value else none

theorem acceptOneOf_of_none {kind : TokenKind} {symbol : α → String} {choices : List α} {s : State}
    (h : chosen kind symbol choices s.current = none) :
    acceptOneOf kind symbol choices s = .ok none s := by
  unfold chosen at h
  rw [acceptOneOf, nextOneOf_bind, h]
  rfl

theorem acceptOneOf_of_some {kind : TokenKind} {symbol : α → String} {choices : List α} {s : State}
    {x : Token} {rest : List Token} {a : α} (hs : s.rest = x :: rest)
    (h : chosen kind symbol choices x = some a) :
    acceptOneOf kind symbol choices s = .ok (some a) (s.behind x rest) := by
  have hcurrent : s.current = x := by simp [State.current, hs]
  unfold chosen at h
  rw [acceptOneOf, nextOneOf_bind, hcurrent, h]
  show (discard advance >>= fun _ => pure (some a)) s = _
  rw [bind_of_ok (discard_advance_of_rest hs)]
  rfl

namespace Takes

variable {m : ParseM α} {f : α → ParseM β} {u v : List Token} {x : Token}
  {stops stops' : Token → Prop} {P : α → Prop} {Q : β → Prop}

/-! ## Sequences -/

theorem pure {a : α} (h : P a) : Takes (Pure.pure a) [] stops P :=
  fun s _ _ hs _ => ⟨a, s, rfl, hs, h⟩

theorem mono {P' : α → Prop} (h : Takes m u stops P) (hstops : ∀ t, stops' t → stops t)
    (hP : ∀ a, P a → P' a) : Takes m u stops' P' := by
  intro s t rest hs ht
  obtain ⟨a, s', hm, hs', ha⟩ := h hs (hstops t ht)
  exact ⟨a, s', hm, hs', hP a ha⟩

/-- The first routine stops at the token that the second one starts with. -/
theorem bind (hm : Takes m u stops' P) (hstops : ∀ t, stops t → stops' (v.headD t))
    (hf : ∀ a, P a → Takes (f a) v stops Q) : Takes (m >>= f) (u ++ v) stops Q := by
  intro s t rest hs ht
  obtain ⟨rest', hrest'⟩ := exists_headD_cons v t rest
  rw [List.append_assoc, hrest'] at hs
  obtain ⟨a, s₁, hok, hs₁, ha⟩ := hm hs (hstops t ht)
  rw [← hrest'] at hs₁
  rw [bind_of_ok hok]
  exact hf a ha hs₁ ht

/-- What comes last reads nothing more. -/
theorem bind_nil (hm : Takes m u stops' P) (hstops : ∀ t, stops t → stops' t)
    (hf : ∀ a, P a → Takes (f a) [] stops Q) : Takes (m >>= f) u stops Q := by
  have h := bind (v := []) hm hstops hf
  rwa [List.append_nil] at h

theorem of_bind_pure (h : Takes (m >>= Pure.pure) u stops P) : Takes m u stops P := by
  rwa [bind_pure] at h

theorem map {g : α → β} (hm : Takes m u stops P) (hg : ∀ a, P a → Q (g a)) :
    Takes (g <$> m) u stops Q := by
  intro s t rest hs ht
  obtain ⟨a, s', hok, hs', ha⟩ := hm hs ht
  refine ⟨g a, s', ?_, hs', hg a ha⟩
  show EStateM.map g m s = _
  unfold EStateM.map
  rw [hok]

/-! ## Looking -/

theorem peek {f : Token → ParseM β} (h : ∀ y, Takes (f y) u stops Q) :
    Takes (Parse.peek >>= f) u stops Q :=
  fun s _ _ hs ht => h s.current hs ht

theorem peek_cons {f : Token → ParseM β} (h : Takes (f x) (x :: u) stops Q) :
    Takes (Parse.peek >>= f) (x :: u) stops Q := by
  intro s t rest hs ht
  rw [peek_bind, current_of_rest hs]
  exact h hs ht

theorem spanFrom {start : Span} {f : Span → ParseM β} (h : ∀ span, Takes (f span) u stops Q) :
    Takes (Parse.spanFrom start >>= f) u stops Q :=
  fun s _ _ hs ht => h (s.spanFrom start) hs ht

theorem isMarkNext {mark : String} {f : Bool → ParseM β} {b : Bool}
    (hb : ∀ t, stops t → (u.headD t).isPunctuation mark = b) (h : Takes (f b) u stops Q) :
    Takes (Parse.isMarkNext mark >>= f) u stops Q := by
  intro s t rest hs ht
  rw [isMarkNext_bind, current_of_rest hs, hb t ht]
  exact h hs ht

theorem atEnd {f : Bool → ParseM β} (h : Takes (f false) u stops Q) :
    Takes (Parse.atEnd >>= f) u stops Q := by
  intro s t rest hs ht
  have hne : s.atEnd = false := by simp [State.atEnd, hs]
  rw [atEnd_bind, hne]
  exact h hs ht

theorem isFunctionNext_no {f : Bool → ParseM β} (hfunction : x.isKeyword "function" = false)
    (hasync : x.isKeyword "async" = false) (h : Takes (f false) (x :: u) stops Q) :
    Takes (isFunctionNext >>= f) (x :: u) stops Q := by
  intro s t rest hs ht
  rw [isFunctionNext_bind, current_of_rest hs, List.headD_cons, hfunction, hasync]
  exact h hs ht

/-! ## Reading -/

/-- A step that reads the token in front. -/
theorem cons {m : ParseM α} {f : α → ParseM β} {a : α}
    (hm : ∀ {s : State} {rest : List Token}, s.rest = x :: rest → m s = .ok a (s.behind x rest))
    (h : Takes (f a) u stops Q) : Takes (m >>= f) (x :: u) stops Q := by
  intro s t rest hs ht
  rw [bind_of_ok (hm hs)]
  exact h rfl ht

/-- A step that reads nothing. -/
theorem skip {m : ParseM α} {f : α → ParseM β} {a : α}
    (hm : ∀ {s : State} {t : Token}, stops t → s.current = u.headD t → m s = .ok a s)
    (h : Takes (f a) u stops Q) : Takes (m >>= f) u stops Q := by
  intro s t rest hs ht
  rw [bind_of_ok (hm ht (current_of_rest hs))]
  exact h hs ht

theorem advance {f : Token → ParseM β} (h : Takes (f x) u stops Q) :
    Takes (Parse.advance >>= f) (x :: u) stops Q :=
  cons advance_of_rest h

theorem discard_advance {f : Unit → ParseM β} (h : Takes (f ()) u stops Q) :
    Takes (discard Parse.advance >>= f) (x :: u) stops Q :=
  cons discard_advance_of_rest h

theorem accept_yes {kind : TokenKind} {value : String} {f : Bool → ParseM β}
    (hx : x.is kind value) (h : Takes (f true) u stops Q) :
    Takes (accept kind value >>= f) (x :: u) stops Q :=
  cons (fun hs => accept_of_is hs hx) h

theorem accept_no {kind : TokenKind} {value : String} {f : Bool → ParseM β}
    (hx : ∀ t, stops t → (u.headD t).is kind value = false) (h : Takes (f false) u stops Q) :
    Takes (accept kind value >>= f) u stops Q := by
  refine skip (fun ht hcurrent => ?_) h
  rw [accept, isNext_bind, hcurrent, hx _ ht]
  rfl

/-- The routine goes on behind the mark that has to stand here. -/
theorem require {place : Place} {f : Unit → ParseM β} (hx : x.isPunctuation place.mark)
    (h : Takes (f ()) u stops Q) : Takes (Parse.require place >>= f) (x :: u) stops Q :=
  cons (fun hs => require_of_mark hs hx) h

section
variable {kind : TokenKind} {symbol : α → String} {choices : List α} {f : Option α → ParseM β}

theorem nextOneOf {c : Option α} (hc : ∀ t, stops t → chosen kind symbol choices (u.headD t) = c)
    (h : Takes (f c) u stops Q) : Takes (Parse.nextOneOf kind symbol choices >>= f) u stops Q := by
  intro s t rest hs ht
  have hc := hc t ht
  unfold chosen at hc
  rw [nextOneOf_bind, current_of_rest hs, hc]
  exact h hs ht

theorem acceptOneOf_yes {a : α} (hx : chosen kind symbol choices x = some a)
    (h : Takes (f (some a)) u stops Q) :
    Takes (acceptOneOf kind symbol choices >>= f) (x :: u) stops Q :=
  cons (fun hs => acceptOneOf_of_some hs hx) h

theorem acceptOneOf_no (hx : ∀ t, stops t → chosen kind symbol choices (u.headD t) = none)
    (h : Takes (f none) u stops Q) :
    Takes (acceptOneOf kind symbol choices >>= f) u stops Q :=
  skip (fun ht hcurrent => acceptOneOf_of_none (hcurrent ▸ hx _ ht)) h

end

end Takes

end Parse

end JsSyntax
