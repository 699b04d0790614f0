import JsSyntax.Proofs.Parse.Gathers

/-! # The parts of a result in the order in which they are read

An `Invariant` speaks of a state and of the parts that have been given on the way there, one behind
another. `Threads I K f m`: when the routine `m` succeeds, what held of the parts `K` holds of the
parts that `f` finds in what it gives, whatever parts stand in front (`Threads.threads`). Nothing is
left out on the way, nothing comes twice, and the order is kept: what a routine builds has to be
made of all the parts that it has been given (`Composes`). As with `Moves`, the classes are found
from the text of a routine.
-/

set_option autoImplicit false

namespace JsSyntax

namespace Parse

variable {X α β : Type}

/-- What holds of a state and of the parts that have been given. Reading does not change it. -/
structure Invariant (X : Type) where
  Holds : State → List X → Prop
  reads : ∀ {s s' : State} {u : List Token} {K : List X}, Holds s K → s.Reads u s' →
    s'.events = s.events → Holds s' K

/-! ## What is built of parts -/

theorem parts_cons [Carries X α] (a : α) (as : List α) :
    (parts (a :: as) : List X) = parts a ++ parts as := List.flatMap_cons

/-- The parts `xs` of a value are those of `K`, in order. -/
class Composes (K xs : List X) : Prop where
  eq : K = xs

namespace Composes

variable {K : List X}

instance (priority := high) self : Composes K K := ⟨rfl⟩

section
variable [Carries X α] [Carries X β]

instance bare [h : Bare X α] {a : α} : Composes ([] : List X) (parts a) := ⟨(h.nil a).symm⟩

instance emptyList : Composes ([] : List X) (parts ([] : List α)) := ⟨rfl⟩

instance noneOption : Composes ([] : List X) (parts (none : Option α)) := ⟨rfl⟩

instance someOption {a : α} [h : Composes K (parts a)] : Composes K (parts (some a)) :=
  ⟨h.eq.trans (List.append_nil _).symm⟩

instance pair [hb : Bare X β] {a : α} {b : β} [h : Composes K (parts a)] :
    Composes K (parts (a, b)) := by
  refine ⟨h.eq.trans ?_⟩
  show (parts a : List X) = parts a ++ parts b
  rw [hb.nil, List.append_nil]

instance more {a : α} [h : Composes K (parts a)] : Composes K (parts (Item.more a)) := h

/-- What has been left out of a list does not count. -/
instance filterMap {as : List (Option α)} :
    Composes (parts as : List X) (parts (as.filterMap id)) := by
  refine ⟨?_⟩
  induction as with
  | nil => rfl
  | cons a as ih =>
    cases a with
    | none => exact ih
    | some a =>
      show (parts (some a :: as) : List X) = parts (a :: as.filterMap id)
      rw [parts_cons, parts_cons, ih]
      exact congrArg (· ++ _) (List.append_nil (parts a))

instance ite {c : Prop} [Decidable c] {a b : α} [h : Composes K (parts a)]
    [h' : Composes K (parts b)] : Composes K (parts (if c then a else b)) := by
  split
  · exact h
  · exact h'

/-- The parts of `a`, or of what follows it. -/
def following (a : α) (x : Option α) : List X := parts (x.getD a)

instance followingNone {a : α} :
    Composes (parts a : List X) (following a (none : Option α)) := ⟨rfl⟩

instance followingSome {a b : α} [h : Composes K (parts b)] : Composes K (following a (some b)) := h

end

end Composes

export Composes (following)

/-! ## Routines -/

/-- A success takes what holds of the parts `K` to what holds of the parts of the result. `f` says
which parts are meant. -/
class Threads (I : Invariant X) (K : List X) (f : α → List X) (m : ParseM α) : Prop where
  threads : ∀ {s : State} {a : α} {s' : State} (front : List X), I.Holds s (front ++ K) →
    m s = .ok a s' → I.Holds s' (front ++ f a)

namespace Threads

variable {I : Invariant X} {K : List X} {f : α → List X} {g : β → List X}

/-- A routine that only reads, and gives no parts. -/
theorem of_reading [Carries X α] [hb : Bare X α] {m : ParseM α}
    (h : ∀ {s a s'}, m s = .ok a s' → (∃ u, s.Reads u s') ∧ s'.events = s.events) :
    Threads I [] parts m := by
  refine ⟨fun front hs hok => ?_⟩
  obtain ⟨⟨u, hu⟩, hevents⟩ := h hok
  rw [hb.nil]
  exact I.reads hs hu hevents

theorem of_looking [Carries X α] [Bare X α] {m : ParseM α} (h : ∀ s, ∃ a, m s = .ok a s) :
    Threads I [] parts m := by
  refine of_reading fun {s a s'} hok => ?_
  obtain ⟨b, hb⟩ := h s
  obtain ⟨rfl, rfl⟩ : b = a ∧ s = s' := by simpa [hb] using hok
  exact ⟨⟨[], .refl s⟩, rfl⟩

/-! ## Sequences -/

instance pure {a : α} [h : Composes K (f a)] : Threads I K f (Pure.pure a) := by
  refine ⟨fun front hs hok => ?_⟩
  obtain ⟨rfl, rfl⟩ := pure_eq_ok.mp hok
  exact h.eq ▸ hs

/-- The second routine goes on with the parts that the first one gives. -/
theorem through {m : ParseM α} {k : α → ParseM β} (hm : Threads I K f m)
    (hk : ∀ a, Threads I (f a) g (k a)) : Threads I K g (m >>= k) := by
  refine ⟨fun front hs h => ?_⟩
  obtain ⟨a, s₁, hok, hok'⟩ := bind_eq_ok.mp h
  exact (hk a).threads front (hm.threads front hs hok) hok'

/-- What stands in front of the parts of a routine stays there. -/
theorem frame {m : ParseM α} (hm : Threads I [] f m) : Threads I K (fun a => K ++ f a) m := by
  refine ⟨fun front hs hok => ?_⟩
  rw [← List.append_assoc]
  exact hm.threads (front ++ K) (by rwa [List.append_nil]) hok

section
variable [Carries X α] {m : ParseM α} {k : α → ParseM β}

instance bindFirst [hm : Threads I [] parts m] [hk : ∀ a, Threads I (parts a) g (k a)] :
    Threads I [] g (m >>= k) := through hm hk

instance (priority := low) bindNext [hm : Threads I [] parts m]
    [hk : ∀ a, Threads I (K ++ parts a) g (k a)] : Threads I K g (m >>= k) := through hm.frame hk

/-- A routine without parts changes nothing. -/
instance (priority := high) bindBare [hb : Bare X α] [hm : Threads I [] parts m]
    [hk : ∀ a, Threads I K g (k a)] : Threads I K g (m >>= k) :=
  through hm.frame fun a => by
    rw [hb.nil, List.append_nil]
    exact hk a

/-- A routine may take the parts that have been given, and give others in their place. -/
instance (priority := low) bindThrough [hm : Threads I K parts m]
    [hk : ∀ a, Threads I (parts a) g (k a)] : Threads I K g (m >>= k) := through hm hk

/-- What follows a look at the next token may depend on it. -/
theorem looking {k : Token → ParseM β} (hk : ∀ t, Threads I K g (k t)) :
    Threads I K g (Parse.peek >>= k) :=
  ⟨fun {s} _ _ front hs h => (hk s.current).threads front hs h⟩

/-- A choice is followed by one routine for each case. -/
instance (priority := low) bindOption {m : ParseM (Option α)} {k : Option α → ParseM β}
    [Bare X α] [Threads I [] parts m] [hn : Threads I K g (k none)]
    [hs : ∀ a, Threads I K g (k (some a))] : Threads I K g (m >>= k) :=
  have : ∀ x, Threads I K g (k x) := Option.forall.2 ⟨hn, hs⟩
  bindBare

instance map {m : ParseM α} {k : α → β} [Threads I [] parts m]
    [∀ a, Composes (parts a) (g (k a))] : Threads I [] g (k <$> m) :=
  inferInstanceAs (Threads I [] g (m >>= fun a => Pure.pure (k a)))

instance discard {m : ParseM α} [hb : Bare X α] [hm : Threads I [] parts m] :
    Threads I [] parts (Functor.discard m) := by
  refine ⟨fun front hs h => ?_⟩
  obtain ⟨a, hok⟩ := discard_eq_ok.mp h
  have := hm.threads front hs hok
  rwa [hb.nil] at this

end

instance ite {c : Prop} [Decidable c] {m m' : ParseM α} [hm : Threads I K f m]
    [hm' : Threads I K f m'] : Threads I K f (if c then m else m') := by
  split
  · exact hm
  · exact hm'

instance fail {fault : Fault} : Threads I K f (Parse.fail fault) :=
  ⟨fun _ _ h => absurd h fail_ne_ok⟩

instance unexpected : Threads I K f Parse.unexpected :=
  ⟨fun _ _ h => absurd h unexpected_ne_ok⟩

/-! ## Steps -/

instance peek : Threads I [] parts Parse.peek := of_looking fun _ => ⟨_, rfl⟩

instance peekSecond : Threads I [] parts Parse.peekSecond := of_looking fun _ => ⟨_, rfl⟩

instance atEnd : Threads I [] parts Parse.atEnd := of_looking fun _ => ⟨_, rfl⟩

instance isNext {kind : TokenKind} {value : String} :
    Threads I [] parts (Parse.isNext kind value) := of_looking fun _ => ⟨_, rfl⟩

instance isMarkNext {mark : String} : Threads I [] parts (Parse.isMarkNext mark) :=
  of_looking fun _ => ⟨_, rfl⟩

instance isFunctionNext : Threads I [] parts Parse.isFunctionNext := of_looking fun _ => ⟨_, rfl⟩

instance spanFrom {start : Span} : Threads I [] parts (Parse.spanFrom start) :=
  of_looking fun _ => ⟨_, rfl⟩

instance nextOneOf [Carries X α] [Bare X α] {kind : TokenKind} {symbol : α → String}
    {choices : List α} : Threads I [] parts (Parse.nextOneOf kind symbol choices) :=
  of_looking fun _ => ⟨_, rfl⟩

instance advance : Threads I [] parts Parse.advance := by
  refine of_reading fun {s a s'} h => ?_
  unfold Parse.advance at h
  cases hr : s.rest with
  | nil =>
    rw [hr] at h
    cases h
    exact ⟨⟨[], .refl s⟩, rfl⟩
  | cons t rest =>
    rw [hr] at h
    cases h
    exact ⟨⟨[_], hr, rfl, rfl⟩, rfl⟩

instance accept {kind : TokenKind} {value : String} :
    Threads I [] parts (Parse.accept kind value) := by
  unfold Parse.accept
  infer_instance

instance acceptMark {mark : String} : Threads I [] parts (Parse.acceptMark mark) := accept

instance acceptOperator {symbol : String} : Threads I [] parts (Parse.acceptOperator symbol) :=
  accept

instance acceptKeyword {word : String} : Threads I [] parts (Parse.acceptKeyword word) := accept

instance acceptWord {word : String} : Threads I [] parts (Parse.acceptWord word) := by
  unfold Parse.acceptWord
  infer_instance

instance acceptModifier {word : String} : Threads I [] parts (Parse.acceptModifier word) := by
  unfold Parse.acceptModifier
  infer_instance

instance acceptOneOf [Carries X α] [Bare X α] {kind : TokenKind} {symbol : α → String}
    {choices : List α} : Threads I [] parts (Parse.acceptOneOf kind symbol choices) := by
  unfold Parse.acceptOneOf
  infer_instance

instance require {place : Place} : Threads I [] parts (Parse.require place) := by
  unfold Parse.require
  infer_instance

instance identifier {place : NamePlace} : Threads I [] parts (Parse.identifier place) := by
  unfold Parse.identifier
  infer_instance

instance memberName : Threads I [] parts Parse.memberName := by
  unfold Parse.memberName
  infer_instance

/-! ## Loops -/

section
variable [Carries X α]

theorem iterate_go {step : α → ParseM (Option α)}
    (hstep : ∀ a, Threads I (parts a) (following a) (step a)) (fuel : List Token) (a : α) :
    Threads I (parts a) parts (iterate.go step fuel a) := by
  induction fuel generalizing a with
  | nil => exact pure
  | cons t fuel ih =>
    refine through (hstep a) fun x => ?_
    cases x with
    | none => exact pure (h := ⟨rfl⟩)
    | some b => exact ih b

instance iterate {step : α → ParseM (Option α)}
    [hstep : ∀ a, Threads I (parts a) (following a) (step a)] {a : α} [h : Composes K (parts a)] :
    Threads I K parts (Parse.iterate step a) :=
  ⟨fun {s} _ _ front hs hok => (iterate_go hstep s.ahead a).threads front (h.eq ▸ hs) hok⟩

theorem collect_go {step : ParseM (Item α)} [hstep : Threads I [] parts step]
    (fuel : List Token) : Threads I [] parts (collect.go step fuel) := by
  induction fuel with
  | nil => exact pure
  | cons t fuel ih =>
    refine through hstep fun x => ?_
    cases x with
    | stop => exact pure (h := ⟨rfl⟩)
    | last a => exact pure (h := ⟨(List.append_nil _).symm⟩)
    | more a => exact through ih.frame fun as => pure (h := ⟨(parts_cons a as).symm⟩)

instance collect {step : ParseM (Item α)} [Threads I [] parts step] :
    Threads I [] parts (Parse.collect step) :=
  ⟨fun {s} _ _ front hs hok => (collect_go s.ahead).threads front hs hok⟩

instance commaItem {element : ParseM α} [Threads I [] parts element] :
    Threads I [] parts (Parse.commaItem element) := by
  unfold Parse.commaItem
  infer_instance

instance upTo {mark : String} {item : ParseM (Item α)} [Threads I [] parts item] :
    Threads I [] parts (Parse.upTo mark item) := by
  unfold Parse.upTo
  infer_instance

end

end Threads

end Parse

end JsSyntax
