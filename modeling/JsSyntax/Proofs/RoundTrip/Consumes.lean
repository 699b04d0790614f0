import JsSyntax.Proofs.RoundTrip.Takes

/-! # Routines in front of given tokens

`Consumes m u rest P`: in front of the tokens `u` and `rest`, the routine `m` reads `u` and no more,
and what it returns satisfies `P`. A routine that ends with a token it asks for, as a block ends
with its brace, consumes its tokens whatever `rest` is. What only `Takes` its tokens needs to see
the next one; in front of a token that is read next it does (`Takes.bind_consumes`).
-/

set_option autoImplicit false

namespace JsSyntax

namespace Parse

variable {α β : Type}

def Consumes (m : ParseM α) (u rest : List Token) (P : α → Prop) : Prop :=
  ∀ ⦃s : State⦄, s.rest = u ++ rest → ∃ a s', m s = .ok a s' ∧ s'.rest = rest ∧ P a

namespace Consumes

variable {m : ParseM α} {f : α → ParseM β} {u v rest : List Token} {x : Token}
  {P P' : α → Prop} {Q : β → Prop}

theorem takes (h : ∀ rest, Consumes m u rest P) {stops : Token → Prop} : Takes m u stops P :=
  fun _ t rest hs _ => h (t :: rest) hs

theorem mono (h : Consumes m u rest P) (hP : ∀ a, P a → P' a) : Consumes m u rest P' := by
  intro s hs
  obtain ⟨a, s', hok, hs', ha⟩ := h hs
  exact ⟨a, s', hok, hs', hP a ha⟩

/-! ## Sequences -/

theorem pure {a : α} (h : P a) : Consumes (Pure.pure a) [] rest P :=
  fun s hs => ⟨a, s, rfl, hs, h⟩

theorem bind (hm : Consumes m u (v ++ rest) P) (hf : ∀ a, P a → Consumes (f a) v rest Q) :
    Consumes (m >>= f) (u ++ v) rest Q := by
  intro s hs
  rw [List.append_assoc] at hs
  obtain ⟨a, s₁, hok, hs₁, ha⟩ := hm hs
  rw [bind_of_ok hok]
  exact hf a ha hs₁

/-- What comes last reads nothing more. -/
theorem bind_nil (hm : Consumes m u rest P) (hf : ∀ a, P a → Consumes (f a) [] rest Q) :
    Consumes (m >>= f) u rest Q := by
  have h := bind hm hf
  rwa [List.append_nil] at h

theorem map {g : α → β} (hm : Consumes m u rest P) (hg : ∀ a, P a → Q (g a)) :
    Consumes (g <$> m) u rest Q :=
  hm.bind_nil fun a ha => pure (hg a ha)

/-! ## Looking -/

theorem peek {f : Token → ParseM β} (h : ∀ y, Consumes (f y) u rest Q) :
    Consumes (Parse.peek >>= f) u rest Q :=
  fun s hs => h s.current hs

theorem peek_cons {f : Token → ParseM β} (h : Consumes (f x) (x :: u) rest Q) :
    Consumes (Parse.peek >>= f) (x :: u) rest Q := by
  intro s hs
  have hcurrent : s.current = x := by simp [State.current, hs]
  rw [peek_bind, hcurrent]
  exact h hs

theorem atEnd {f : Bool → ParseM β} (h : Consumes (f false) (x :: u) rest Q) :
    Consumes (Parse.atEnd >>= f) (x :: u) rest Q := by
  intro s hs
  have hne : s.atEnd = false := by simp [State.atEnd, hs]
  rw [atEnd_bind, hne]
  exact h hs

theorem spanFrom {start : Span} {f : Span → ParseM β} (h : ∀ span, Consumes (f span) u rest Q) :
    Consumes (Parse.spanFrom start >>= f) u rest Q :=
  fun s hs => h (s.spanFrom start) hs

theorem emit {e : Event} {f : Unit → ParseM β} (h : Consumes (f ()) u rest Q) :
    Consumes (Parse.emit e >>= f) u rest Q :=
  fun s hs => h (s := { s with events := e :: s.events }) hs

/-- A step that reads nothing, by the tokens in front. -/
theorem skip {m : ParseM α} {a : α} (hm : ∀ {s : State}, s.current = x → m s = .ok a s)
    (h : Consumes (f a) (x :: u) rest Q) : Consumes (m >>= f) (x :: u) rest Q := by
  intro s hs
  have hcurrent : s.current = x := by simp [State.current, hs]
  rw [bind_of_ok (hm hcurrent)]
  exact h hs

theorem isMarkNext {mark : String} {f : Bool → ParseM β} {b : Bool} (hb : x.isPunctuation mark = b)
    (h : Consumes (f b) (x :: u) rest Q) :
    Consumes (Parse.isMarkNext mark >>= f) (x :: u) rest Q := by
  refine skip (fun hcurrent => ?_) h
  subst hcurrent
  subst hb
  rfl

theorem accept_no {kind : TokenKind} {value : String} {f : Bool → ParseM β}
    (hx : x.is kind value = false) (h : Consumes (f false) (x :: u) rest Q) :
    Consumes (accept kind value >>= f) (x :: u) rest Q := by
  refine skip (fun hcurrent => ?_) h
  rw [accept, isNext_bind, hcurrent, hx]
  rfl

theorem acceptOneOf_no {γ : Type} {kind : TokenKind} {symbol : γ → String} {choices : List γ}
    {f : Option γ → ParseM β} (hx : chosen kind symbol choices x = none)
    (h : Consumes (f none) (x :: u) rest Q) :
    Consumes (acceptOneOf kind symbol choices >>= f) (x :: u) rest Q :=
  skip (fun hcurrent => acceptOneOf_of_none (hcurrent ▸ hx)) h

/-! ## Reading -/

/-- A step that reads the token in front. -/
theorem cons {m : ParseM α} {a : α}
    (hm : ∀ {s : State} {rest : List Token}, s.rest = x :: rest → m s = .ok a (s.behind x rest))
    (h : Consumes (f a) u rest Q) : Consumes (m >>= f) (x :: u) rest Q := by
  intro s hs
  rw [bind_of_ok (hm hs)]
  exact h rfl

theorem advance {f : Token → ParseM β} (h : Consumes (f x) u rest Q) :
    Consumes (Parse.advance >>= f) (x :: u) rest Q :=
  cons advance_of_rest h

theorem discard_advance {f : Unit → ParseM β} (h : Consumes (f ()) u rest Q) :
    Consumes (discard Parse.advance >>= f) (x :: u) rest Q :=
  cons discard_advance_of_rest h

theorem accept_yes {kind : TokenKind} {value : String} {f : Bool → ParseM β} (hx : x.is kind value)
    (h : Consumes (f true) u rest Q) : Consumes (accept kind value >>= f) (x :: u) rest Q :=
  cons (fun hs => accept_of_is hs hx) h

theorem require {place : Place} {f : Unit → ParseM β} (hx : x.isPunctuation place.mark)
    (h : Consumes (f ()) u rest Q) : Consumes (Parse.require place >>= f) (x :: u) rest Q :=
  cons (fun hs => require_of_mark hs hx) h

end Consumes

theorem Takes.consumes {m : ParseM α} {u rest : List Token} {t : Token} {stops : Token → Prop}
    {P : α → Prop} (h : Takes m u stops P) (ht : stops t) : Consumes m u (t :: rest) P :=
  fun _ hs => h hs ht

/-- The first routine stops at the token that the second one starts with. -/
theorem Takes.bind_consumes {m : ParseM α} {f : α → ParseM β} {u v rest : List Token}
    {x : Token} {stops : Token → Prop} {P : α → Prop} {Q : β → Prop} (hm : Takes m u stops P)
    (hx : stops x) (hf : ∀ a, P a → Consumes (f a) (x :: v) rest Q) :
    Consumes (m >>= f) (u ++ x :: v) rest Q := by
  intro s hs
  rw [List.append_assoc] at hs
  obtain ⟨a, s₁, hok, hs₁, ha⟩ := hm hs hx
  rw [bind_of_ok hok]
  exact hf a ha hs₁

end Parse

end JsSyntax
