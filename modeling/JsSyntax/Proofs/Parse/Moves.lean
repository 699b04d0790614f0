import JsSyntax.Parse.Statement
import JsSyntax.Proofs.Parse.Loops

/-! # No routine goes back

Whether a routine succeeds or fails, it has read some of the tokens ahead and left the others as
they are, and has logged the starts of statements only; and a failure is reported at the next token,
or the token read last is no semicolon and the report is at the start of a token that has been read
(`Moves`). The property is a class, so that it is found from the text of a routine. Where a failure
is reported at what has been read before, the class needs the grammar of what that was.
-/

set_option autoImplicit false

namespace JsSyntax

open Grammar

/-- Where a token is reported. -/
def Token.location (t : Token) : Location := ⟨t.line, t.column⟩

theorem Fault.location_report {fault : Fault} {p : Position} {t : Token} (h : p = t.span.start) :
    (fault.report p).location = t.location := h ▸ rfl

namespace Parse

variable {α β : Type}

/-- The state after a success or a failure. -/
def after : EStateM.Result Diagnostic State α → State
  | .ok _ s => s
  | .error _ s => s

/-- The failure is reported at the next token, or no semicolon has been read last. -/
def Blames (e : Diagnostic) (s : State) : Prop :=
  e.location = ⟨s.current.line, s.current.column⟩ ∨
    ∃ t, s.last = some t ∧ ¬ Reading.spanned.IsMark t ";"

/-- The failure is reported at one of the tokens `v`, at one read since, or at the next one. -/
def Locates (v : List Token) (s : State) (e : Diagnostic) (s' : State) : Prop :=
  ∃ u, s.Reads u s' ∧ ∃ t ∈ v ++ u ++ [s'.current], e.location = t.location

/-- What every routine does from the state `s` on, in front of which the tokens `v` stand. -/
structure MovesFrom (v : List Token) (s : State) (r : EStateM.Result Diagnostic State α) :
    Prop where
  reads : ∃ u, s.Reads u (after r)
  logs : ∃ ts : List Token, (after r).events = ts.map Event.statement ++ s.events
  blames : ∀ {e s'}, r = .error e s' → Blames e s'
  locates : ∀ {e s'}, r = .error e s' → Locates v s e s'

namespace MovesFrom

variable {v : List Token} {s : State}

theorem mono {v' : List Token} {r : EStateM.Result Diagnostic State α} (h : MovesFrom v s r)
    (hv : v ⊆ v') : MovesFrom v' s r := by
  refine ⟨h.reads, h.logs, h.blames, fun he => ?_⟩
  obtain ⟨u, hu, t, ht, hloc⟩ := h.locates he
  simp only [List.mem_append, or_assoc] at ht
  exact ⟨u, hu, t, by simpa only [List.mem_append, or_assoc] using ht.imp_left (@hv t), hloc⟩

/-- A routine that succeeds only moves. -/
theorem ok {a : α} {s' : State} (hr : ∃ u, s.Reads u s')
    (hl : ∃ ts : List Token, s'.events = ts.map Event.statement ++ s.events) :
    MovesFrom v s (.ok a s' : EStateM.Result Diagnostic State α) :=
  ⟨hr, hl, nofun, nofun⟩

/-- A routine that fails at once, where it says. -/
theorem error {e : Diagnostic} (hb : Blames e s)
    (hl : ∃ t ∈ v ++ [s.current], e.location = t.location) :
    MovesFrom v s (.error e s : EStateM.Result Diagnostic State α) := by
  refine ⟨⟨[], .refl s⟩, ⟨[], rfl⟩, ?_, ?_⟩
  · rintro e s' ⟨⟩
    exact hb
  · rintro e s' ⟨⟩
    exact ⟨[], .refl s, by simpa using hl⟩

/-- What follows a routine may depend on what the routine reads, and on the state it leaves. -/
theorem bind {m : ParseM α} {f : α → ParseM β} (hm : MovesFrom v s (m s))
    (hf : ∀ {a s' u}, m s = .ok a s' → s.Reads u s' → MovesFrom (v ++ u) s' (f a s')) :
    MovesFrom v s ((m >>= f) s) := by
  show MovesFrom v s (EStateM.bind m f s)
  unfold EStateM.bind
  cases h : m s with
  | ok a s' =>
    rw [h] at hm
    obtain ⟨u, hu⟩ := hm.reads
    obtain ⟨ts, hts⟩ := hm.logs
    have hfa := hf h hu
    obtain ⟨w, hw⟩ := hfa.reads
    obtain ⟨ts', hts'⟩ := hfa.logs
    refine ⟨⟨u ++ w, hu.trans hw⟩, ⟨ts' ++ ts, ?_⟩, hfa.blames, fun he => ?_⟩
    · show (after (f a s')).events = _
      rw [hts', show s'.events = _ from hts, List.map_append, List.append_assoc]
    · obtain ⟨w, hw, t, ht, hloc⟩ := hfa.locates he
      exact ⟨u ++ w, hu.trans hw, t, by simpa only [List.append_assoc] using ht, hloc⟩
  | error e s' =>
    rw [h] at hm
    refine ⟨hm.reads, hm.logs, ?_, ?_⟩
    · rintro e s' ⟨⟩
      exact hm.blames rfl
    · rintro e s' ⟨⟩
      exact hm.locates rfl

end MovesFrom

/-- However the routine ends, tokens have been read one after another. -/
class Moves (m : ParseM α) : Prop where
  moves : ∀ s : State, MovesFrom [] s (m s)

namespace Moves

theorem ok {m : ParseM α} [hm : Moves m] {s s' : State} {a : α} (h : m s = .ok a s') :
    ∃ u, s.Reads u s' := by
  have := (hm.moves s).reads
  rwa [h] at this

theorem error {m : ParseM α} [hm : Moves m] {s s' : State} {e : Diagnostic}
    (h : m s = .error e s') : ∃ u, s.Reads u s' := by
  have := (hm.moves s).reads
  rwa [h] at this

theorem blames {m : ParseM α} [hm : Moves m] {s s' : State} {e : Diagnostic}
    (h : m s = .error e s') : Blames e s' :=
  (hm.moves s).blames h

theorem locates {m : ParseM α} [hm : Moves m] {s s' : State} {e : Diagnostic}
    (h : m s = .error e s') : Locates [] s e s' :=
  (hm.moves s).locates h

theorem error_logs {m : ParseM α} [hm : Moves m] {s s' : State} {e : Diagnostic}
    (h : m s = .error e s') :
    ∃ ts : List Token, s'.events = ts.map Event.statement ++ s.events := by
  have := (hm.moves s).logs
  rwa [h] at this

/-! ## Sequences -/

/-- A routine that succeeds and leaves the state as it is. -/
theorem of_looking {m : ParseM α} (h : ∀ s, ∃ a, m s = .ok a s) : Moves m := by
  refine ⟨fun s => ?_⟩
  obtain ⟨a, hok⟩ := h s
  rw [hok]
  exact .ok ⟨[], .refl s⟩ ⟨[], rfl⟩

instance pure (a : α) : Moves (Pure.pure a : ParseM α) := of_looking fun _ => ⟨a, rfl⟩

instance bind {m : ParseM α} {f : α → ParseM β} [hm : Moves m] [hf : ∀ a, Moves (f a)] :
    Moves (m >>= f) :=
  ⟨fun s => (hm.moves s).bind fun _ _ => ((hf _).moves _).mono (List.nil_subset _)⟩

/-- A choice is followed by one routine for each case. -/
instance (priority := low) bindOption {m : ParseM (Option α)} {f : Option α → ParseM β}
    [Moves m] [hn : Moves (f none)] [hs : ∀ a, Moves (f (some a))] : Moves (m >>= f) :=
  have : ∀ x, Moves (f x) := Option.forall.2 ⟨hn, hs⟩
  bind

theorem andThen {m : ParseM α} {f : α → ParseM β} [Moves m] (hf : ∀ a, Moves (f a)) :
    Moves (m >>= f) := bind

instance map {m : ParseM α} {f : α → β} [hm : Moves m] : Moves (f <$> m) :=
  inferInstanceAs (Moves (m >>= fun a => Pure.pure (f a)))

instance discard {m : ParseM α} [Moves m] : Moves (Functor.discard m) :=
  inferInstanceAs (Moves ((fun _ => ()) <$> m))

instance ite {c : Prop} [Decidable c] {m m' : ParseM α} [hm : Moves m] [hm' : Moves m'] :
    Moves (if c then m else m') := by
  split
  · exact hm
  · exact hm'

/-! ## Steps -/

instance peek : Moves Parse.peek := of_looking fun _ => ⟨_, rfl⟩

instance peekSecond : Moves Parse.peekSecond := of_looking fun _ => ⟨_, rfl⟩

instance atEnd : Moves Parse.atEnd := of_looking fun _ => ⟨_, rfl⟩

instance isNext (kind : TokenKind) (value : String) : Moves (Parse.isNext kind value) :=
  of_looking fun _ => ⟨_, rfl⟩

instance isMarkNext (mark : String) : Moves (Parse.isMarkNext mark) := of_looking fun _ => ⟨_, rfl⟩

instance nextOneOf (kind : TokenKind) (symbol : α → String) (choices : List α) :
    Moves (Parse.nextOneOf kind symbol choices) := of_looking fun _ => ⟨_, rfl⟩

instance spanFrom (start : Span) : Moves (Parse.spanFrom start) := of_looking fun _ => ⟨_, rfl⟩

instance isFunctionNext : Moves Parse.isFunctionNext := of_looking fun _ => ⟨_, rfl⟩

instance emit (t : Token) : Moves (Parse.emit (.statement t)) :=
  ⟨fun _ => .ok ⟨[], rfl, rfl, rfl⟩ ⟨[t], rfl⟩⟩

instance advance : Moves Parse.advance := by
  refine ⟨fun s => ?_⟩
  unfold Parse.advance
  cases hr : s.rest with
  | nil => exact .ok ⟨[], .refl s⟩ ⟨[], rfl⟩
  | cons t rest => exact .ok ⟨[t], hr, rfl, rfl⟩ ⟨[], rfl⟩

instance accept (kind : TokenKind) (value : String) : Moves (Parse.accept kind value) := by
  unfold Parse.accept
  infer_instance

instance acceptMark (mark : String) : Moves (Parse.acceptMark mark) := accept ..

instance acceptOperator (symbol : String) : Moves (Parse.acceptOperator symbol) := accept ..

instance acceptKeyword (word : String) : Moves (Parse.acceptKeyword word) := accept ..

instance acceptWord (word : String) : Moves (Parse.acceptWord word) := by
  unfold Parse.acceptWord
  infer_instance

instance acceptModifier (word : String) : Moves (Parse.acceptModifier word) := by
  unfold Parse.acceptModifier
  infer_instance

instance acceptOneOf (kind : TokenKind) (symbol : α → String) (choices : List α) :
    Moves (Parse.acceptOneOf kind symbol choices) := by
  unfold Parse.acceptOneOf
  refine andThen fun x => ?_
  cases x <;> infer_instance

instance fail (fault : Fault) : Moves (Parse.fail fault : ParseM α) :=
  ⟨fun s => .error (.inl rfl) ⟨s.current, List.mem_singleton_self _, rfl⟩⟩

instance unexpected : Moves (Parse.unexpected : ParseM α) := by
  unfold Parse.unexpected
  infer_instance

instance require (place : Place) : Moves (Parse.require place) := by
  unfold Parse.require
  infer_instance

instance identifier (place : NamePlace) : Moves (Parse.identifier place) := by
  unfold Parse.identifier
  infer_instance

instance memberName : Moves Parse.memberName := by
  unfold Parse.memberName
  infer_instance

/-! ## Loops -/

theorem iterate_go {step : α → ParseM (Option α)} [hstep : ∀ a, Moves (step a)]
    (fuel : List Token) (a : α) : Moves (iterate.go step fuel a) := by
  induction fuel generalizing a with
  | nil => exact pure a
  | cons t fuel ih =>
    refine andThen fun x => ?_
    cases x with
    | none => exact pure a
    | some b => exact ih b

instance iterate {step : α → ParseM (Option α)} [∀ a, Moves (step a)] (a : α) :
    Moves (Parse.iterate step a) :=
  ⟨fun s => (iterate_go s.ahead a).moves s⟩

theorem collect_go {step : ParseM (Item α)} [hstep : Moves step] (fuel : List Token) :
    Moves (collect.go step fuel) := by
  induction fuel with
  | nil => exact pure []
  | cons t fuel ih =>
    refine andThen fun x => ?_
    cases x <;> infer_instance

instance collect {step : ParseM (Item α)} [Moves step] : Moves (Parse.collect step) :=
  ⟨fun s => (collect_go s.ahead).moves s⟩

instance commaItem {element : ParseM α} [Moves element] : Moves (Parse.commaItem element) := by
  unfold Parse.commaItem
  infer_instance

instance upTo {mark : String} {item : ParseM (Item α)} [Moves item] :
    Moves (Parse.upTo mark item) := by
  unfold Parse.upTo
  infer_instance

end Moves

end Parse

end JsSyntax
