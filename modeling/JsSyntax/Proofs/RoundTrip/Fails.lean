import JsSyntax.Proofs.RoundTrip.Program

/-! # Routines that fail in front of given tokens

`Fails m u rest P`: in front of the tokens `u` and `rest`, the routine `m` reads `u` and then fails
with a diagnostic that satisfies `P`. A routine fails where the phrase that it starts with does, so
a failure climbs through the levels of precedence (`Fails.looser`) and through the phrases around
it. Behind a failure the tokens up to a place where a statement may start are passed
(`rest_afterFailure`).
-/

set_option autoImplicit false

namespace JsSyntax

namespace Parse

variable {α β : Type}

def Fails (m : ParseM α) (u rest : List Token) (P : Diagnostic → Prop) : Prop :=
  ∀ ⦃s : State⦄, s.rest = u ++ rest → ∃ e s', m s = .error e s' ∧ s'.rest = rest ∧ P e

theorem current_of_head {s : State} {u rest : List Token} {x : Token}
    (hx : (u ++ rest).head? = some x) (hs : s.rest = u ++ rest) : s.current = x := by
  obtain ⟨v, hv⟩ := List.head?_eq_some_iff.1 hx
  simp [State.current, hs, hv]

namespace Fails

variable {m : ParseM α} {f : α → ParseM β} {u rest : List Token} {x : Token}
  {P : Diagnostic → Prop}

theorem fail {fault : Fault} (h : ∀ p, P (fault.report p)) :
    Fails (Parse.fail fault : ParseM α) [] rest P :=
  fun s hs => ⟨_, s, rfl, hs, h _⟩

/-! ## Sequences -/

theorem bind (h : Fails m u rest P) : Fails (m >>= f) u rest P := by
  intro s hs
  obtain ⟨e, s', herror, hs', he⟩ := h hs
  exact ⟨e, s', bind_of_error herror, hs', he⟩

/-- A step that reads nothing, by the next token. -/
theorem skip {a : α} (hx : (u ++ rest).head? = some x)
    (hm : ∀ {s : State}, s.current = x → m s = .ok a s) (h : Fails (f a) u rest P) :
    Fails (m >>= f) u rest P := by
  intro s hs
  rw [bind_of_ok (hm (current_of_head hx hs))]
  exact h hs

/-- A step that reads the token in front. -/
theorem cons {a : α}
    (hm : ∀ {s : State} {rest : List Token}, s.rest = x :: rest → m s = .ok a (s.behind x rest))
    (h : Fails (f a) u rest P) : Fails (m >>= f) (x :: u) rest P := by
  intro s hs
  rw [bind_of_ok (hm hs)]
  exact h rfl

theorem peek {f : Token → ParseM β} (h : ∀ y, Fails (f y) u rest P) :
    Fails (Parse.peek >>= f) u rest P :=
  fun s hs => h s.current hs

theorem peek_head {f : Token → ParseM β} (hx : (u ++ rest).head? = some x)
    (h : Fails (f x) u rest P) : Fails (Parse.peek >>= f) u rest P :=
  skip hx (fun hcurrent => hcurrent ▸ rfl) h

theorem atEnd {f : Bool → ParseM β} (hx : (u ++ rest).head? = some x)
    (h : Fails (f false) u rest P) : Fails (Parse.atEnd >>= f) u rest P := by
  intro s hs
  have hne : s.atEnd = false := by
    obtain ⟨v, hv⟩ := List.head?_eq_some_iff.1 hx
    simp [State.atEnd, hs, hv]
  rw [atEnd_bind, hne]
  exact h hs

theorem emit {event : Event} {f : Unit → ParseM β} (h : Fails (f ()) u rest P) :
    Fails (Parse.emit event >>= f) u rest P :=
  fun s hs => h (s := { s with events := event :: s.events }) hs

theorem accept_no {kind : TokenKind} {value : String} {f : Bool → ParseM β}
    (hx : (u ++ rest).head? = some x) (hno : x.is kind value = false)
    (h : Fails (f false) u rest P) : Fails (accept kind value >>= f) u rest P := by
  refine skip hx (fun hcurrent => ?_) h
  rw [accept, isNext_bind, hcurrent, hno]
  rfl

theorem acceptOneOf_no {γ : Type} {kind : TokenKind} {symbol : γ → String} {choices : List γ}
    {f : Option γ → ParseM β} (hx : (u ++ rest).head? = some x)
    (hno : chosen kind symbol choices x = none) (h : Fails (f none) u rest P) :
    Fails (acceptOneOf kind symbol choices >>= f) u rest P :=
  skip hx (fun hcurrent => acceptOneOf_of_none (hcurrent ▸ hno)) h

theorem discard_advance {f : Unit → ParseM β} (h : Fails (f ()) u rest P) :
    Fails (discard Parse.advance >>= f) (x :: u) rest P :=
  cons discard_advance_of_rest h

/-- The first element of a list. -/
theorem collect {step : ParseM (Item α)} (h : Fails step u rest P) :
    Fails (Parse.collect step) u rest P :=
  fun _ hs => h.bind hs

/-! ## Levels -/

variable {d : Deeper}

theorem acceptUnaryOp_no {f : Option UnaryOp → ParseM β} (hx : (u ++ rest).head? = some x)
    (hunsigned : Unsigned x) (h : Fails (f none) u rest P) :
    Fails (acceptUnaryOp >>= f) u rest P := by
  refine skip hx (fun hcurrent => ?_) h
  subst hcurrent
  rw [acceptUnaryOp, bind_of_ok (acceptOneOf_of_none hunsigned.mark)]
  exact acceptOneOf_of_none hunsigned.word

/-- Where a phrase of a level fails, a phrase of a looser level fails; a token that is an operator
in front of its operand belongs to a level of its own. -/
theorem looser {p q : Precedence} (hle : p.rank ≤ q.rank) (hx : (u ++ rest).head? = some x)
    (hplain : Precedence.unary.rank < q.rank → Unprefixed x)
    (h : Fails (routineAt d q) u rest P) : Fails (routineAt d p) u rest P := by
  refine Precedence.of_tighter (motive := fun p => Fails (routineAt d p) u rest P) hle h ?_
  intro p hlt ih
  cases hl : loopAt? d p with
  | some l =>
    rw [← loopAt?_run hl]
    rw [← loopAt?_operand hl] at ih
    exact .peek fun _ => .bind ih
  | none =>
    cases p with
    | assignment | conditional => exact .peek fun _ => .bind ih
    | unary =>
      have hunsigned := (hplain hlt).toUnsigned
      exact .peek fun _ => .accept_no hx hunsigned.await (.acceptUnaryOp_no hx hunsigned ih)
    | update =>
      have hupdate := (hplain (Nat.lt_trans (by decide) hlt)).update
      exact .peek fun _ => .acceptOneOf_no hx hupdate (.bind ih)
    | primary => exact ih
    | or | and | equality | comparison | additive | multiplicative | chain => cases hl

/-! ## Phrases around a phrase that fails -/

theorem group (h : Fails d.assignment u rest P) : Fails (primary d) (.mark "(" :: u) rest P :=
  .peek_head rfl (.peek_head rfl (.discard_advance (.bind h)))

theorem negation (h : Fails d.unary u rest P) : Fails (unary d) (.operator "!" :: u) rest P := by
  refine .peek fun _ => .accept_no rfl (by decide) (.cons (a := some .not) (fun hs => ?_) (.bind h))
  rw [acceptUnaryOp, bind_of_ok (acceptOneOf_of_some hs rfl)]
  rfl

theorem construction (h : Fails (primary d) u rest P) :
    Fails (construction d) (.keyword "new" :: u) rest P :=
  .peek fun _ => .discard_advance (.peek fun _ => .bind h)

theorem primary_new (hx : (u ++ rest).head? = some (.keyword "new"))
    (h : Fails d.construction u rest P) : Fails (primary d) u rest P := by
  refine .peek_head hx (.peek_head hx ?_)
  rw [if_neg (by decide), if_neg (by decide), if_neg (by decide)]
  refine .skip (a := false) hx (fun {s} hcurrent => ?_) h
  rw [← bind_pure isFunctionNext, isFunctionNext_bind, hcurrent]
  rfl

/-! ## Statements -/

theorem expressionStatement (hx : (u ++ rest).head? = some x) (hstarts : StartsExpression x)
    (h : Fails d.assignment u rest P) : Fails (statement d) u rest P := by
  intro s hs
  obtain ⟨s₁, hs₁, heq⟩ := statement_eq ((current_of_head hx hs) ▸ hstarts)
  have hstatement : Fails (Parse.expressionStatement d) u rest P := .peek fun _ => .bind h
  rw [heq]
  exact hstatement (hs₁.trans hs)

theorem block (hx : (u ++ rest).head? = some x) (hopen : x.isPunctuation "\x7d" = false)
    (h : Fails d.statement u rest P) : Fails (statement d) (.mark "\x7b" :: u) rest P := by
  have hitem : Fails (upTo "\x7d" do return .more (← d.statement)) u rest P := by
    refine .skip (a := false) hx (fun hcurrent => ?_) (.atEnd hx (.bind h))
    subst hcurrent
    rw [← hopen]
    rfl
  have hblock : Fails (Parse.block d) (.mark "\x7b" :: u) rest P :=
    .peek fun _ => .cons (fun hs => require_of_mark hs rfl) (.bind (.collect hitem))
  exact .peek_head rfl (.emit (.acceptOneOf_no rfl (by decide) (.bind hblock)))

end Fails

/-! ## Recovery -/

/-- May the token be passed, and the one behind it too? -/
def goesOn (x : Token) : Bool := !x.isPunctuation ";" && !startsStatement x

theorem goesOn_iff {x : Token} :
    goesOn x ↔ x.isPunctuation ";" = false ∧ startsStatement x = false := by
  simp [goesOn]

theorem skipped_eq_passed {x y : Token} {rest : List Token} (hx : goesOn x)
    (hy : startsStatement y = false) : skipped x (y :: rest) = passed (y :: rest) := by
  rw [skipped, (goesOn_iff.1 hx).1, hy, Bool.false_or, if_neg Bool.false_ne_true]
  rfl

/-- Up to a token that starts a statement, the tokens are passed, if there is no semicolon but at
their end. -/
theorem passed_eq {u rest : List Token} {y t : Token} (hu : ∀ x ∈ u, goesOn x)
    (hy : startsStatement y = false) (ht : startsStatement t) :
    passed (u ++ y :: t :: rest) = u ++ [y] := by
  induction u with
  | nil => simp [passed, skipped, ht]
  | cons x u ih =>
    obtain ⟨hx, hu⟩ := List.forall_mem_cons.1 hu
    show x :: skipped x (u ++ y :: t :: rest) = x :: (u ++ [y])
    rw [← ih hu]
    cases u with
    | nil => rw [List.nil_append, skipped_eq_passed hx hy]
    | cons z u =>
      have hz : startsStatement z = false := (goesOn_iff.1 (hu z List.mem_cons_self)).2
      rw [List.cons_append, skipped_eq_passed hx hz]

theorem rest_afterFailure {s : State} {e : Diagnostic} {u rest : List Token} {y t : Token}
    (hs : s.rest = u ++ y :: t :: rest) (hu : ∀ x ∈ u, goesOn x) (hy : startsStatement y = false)
    (ht : startsStatement t) : (s.afterFailure e).rest = t :: rest := by
  have hreads := (afterFailure_reads s e).rest
  rw [hs, passed_eq hu hy ht, List.append_assoc] at hreads
  exact (List.cons.inj (List.append_cancel_left hreads)).2.symm

end Parse

end JsSyntax
