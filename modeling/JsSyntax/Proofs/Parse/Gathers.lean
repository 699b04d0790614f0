import JsSyntax.Proofs.Parse.Runs

/-! # What the parts of a result have in common

`Gathers S P K f m`: when the routine `m` succeeds in a state that reading from `S` leads to, all
parts `f` finds in what it gives have the property `P`, if the parts `K` that are known have it. As
with `Moves`, the property is a class that is found from the text of a routine; `Known` follows the
values that the routine builds. What counts as a part is left open. What statements gather, a whole
run gathers (`Runs.gathers`).
-/

set_option autoImplicit false

namespace JsSyntax

namespace Parse

variable {X α β : Type}

/-! ## Parts of values -/

/-- The parts in the values that routines give. -/
class Carries (X α : Type) where
  parts : α → List X

export Carries (parts)

/-- There are none in flags, names, spans and operators. -/
instance (priority := low) Carries.none : Carries X α := ⟨fun _ => []⟩

instance [Carries X α] : Carries X (List α) := ⟨fun as => as.flatMap parts⟩

instance [Carries X α] : Carries X (Option α) := ⟨fun x => x.toList.flatMap parts⟩

instance [Carries X α] [Carries X β] : Carries X (α × β) := ⟨fun x => parts x.1 ++ parts x.2⟩

instance [Carries X α] : Carries X (Item α) where
  parts
    | .stop => []
    | .last a => parts a
    | .more a => parts a

/-- The values of the type have no parts. -/
class Bare (X α : Type) [Carries X α] : Prop where
  nil : ∀ a : α, (parts a : List X) = []

instance (priority := low) : @Bare X α Carries.none := @Bare.mk X α Carries.none fun _ => rfl

instance [Carries X α] [h : Bare X α] : Bare X (List α) :=
  ⟨fun _ => List.flatMap_eq_nil_iff.2 fun a _ => h.nil a⟩

instance [Carries X α] [h : Bare X α] : Bare X (Option α) :=
  ⟨fun _ => List.flatMap_eq_nil_iff.2 fun a _ => h.nil a⟩

/-- The parts of the list have the property if those that are known have it. -/
class Known (P : X → Prop) (K xs : List X) : Prop where
  all : (∀ x ∈ K, P x) → ∀ x ∈ xs, P x

namespace Known

variable {P : X → Prop} {K xs xs' : List X}

instance nil : Known P K [] := ⟨fun _ => nofun⟩

instance append [h : Known P K xs] [h' : Known P K xs'] : Known P K (xs ++ xs') :=
  ⟨fun hK x hx => (List.mem_append.1 hx).elim (h.all hK x) (h'.all hK x)⟩

/-- What has become known last. -/
instance (priority := high) latest : Known P (K ++ xs) xs :=
  ⟨fun hK x hx => hK x (List.mem_append_right K hx)⟩

instance (priority := low) earlier [h : Known P K xs] : Known P (K ++ xs') xs :=
  ⟨fun hK => h.all fun x hx => hK x (List.mem_append_left xs' hx)⟩

instance bare [Carries X α] [h : Bare X α] {a : α} : Known P K (parts a) := by
  rw [h.nil]
  exact nil

/-! ## Lists, options and pairs -/

section
variable [Carries X α] [Carries X β]

instance : Known P K (parts ([] : List α)) := nil

instance cons {a : α} {as : List α} [Known P K (parts a)] [Known P K (parts as)] :
    Known P K (parts (a :: as)) := by
  show Known P K ((a :: as).flatMap parts)
  rw [List.flatMap_cons]
  exact append

instance noneOption : Known P K (parts (Option.none : Option α)) := nil

instance someOption {a : α} [h : Known P K (parts a)] : Known P K (parts (some a)) :=
  ⟨fun hK x hx => h.all hK x (by simpa [parts] using hx)⟩

/-- What has been left out of a list does not count. -/
instance filterMap {as : List (Option α)} [h : Known P K (parts as)] :
    Known P K (parts (as.filterMap id)) := by
  refine ⟨fun hK x hx => h.all hK x ?_⟩
  obtain ⟨a, ha, hx⟩ := List.mem_flatMap.1 hx
  exact List.mem_flatMap.2 ⟨some a, by simpa using ha, by simpa [parts] using hx⟩

instance fst {x : α × β} [h : Known P K (parts x)] : Known P K (parts x.1) :=
  ⟨fun hK y hy => h.all hK y (List.mem_append_left _ hy)⟩

instance pair {a : α} {b : β} [Known P K (parts a)] [Known P K (parts b)] :
    Known P K (parts (a, b)) := append

instance ite {c : Prop} [Decidable c] {a b : α} [h : Known P K (parts a)]
    [h' : Known P K (parts b)] : Known P K (parts (if c then a else b)) := by
  split
  · exact h
  · exact h'

instance last {a : α} [h : Known P K (parts a)] : Known P K (parts (Item.last a)) := h

instance more {a : α} [h : Known P K (parts a)] : Known P K (parts (Item.more a)) := h

end

end Known

/-! ## Routines that gather parts -/

/-- Reading from the state `S` leads to the state. -/
def Reached (S s : State) : Prop := ∃ u, S.Reads u s

theorem Reached.trans {S s s' : State} {u : List Token} (h : Reached S s) (hu : s.Reads u s') :
    Reached S s' := by
  obtain ⟨v, hv⟩ := h
  exact ⟨v ++ u, hv.trans hu⟩

theorem Reached.withEvents {S s : State} (h : Reached S s) (es : List Event) :
    Reached S { s with events := es } := by
  obtain ⟨u, hu⟩ := h
  exact ⟨u, hu.rest, hu.last, hu.stop⟩

/-- A success after reading from `S` gives only parts with the property `P`, if the parts `K` that
are known have it. `f` says which parts of the result are meant. -/
class Gathers (S : State) (P : X → Prop) (K : List X) (f : α → List X) (m : ParseM α) : Prop where
  gathers : ∀ {s a s'}, Reached S s → (∀ x ∈ K, P x) → m s = .ok a s' →
    Reached S s' ∧ ∀ x ∈ f a, P x

namespace Gathers

variable {S : State} {P : X → Prop} {K : List X} {f : α → List X} {g : β → List X}

/-- What is no tree has no parts. -/
instance (priority := low) of_moves [Carries X α] [hb : Bare X α] {m : ParseM α} [hm : Moves m] :
    Gathers S P K parts m := by
  refine ⟨fun {s a s'} hs _ h => ⟨?_, ?_⟩⟩
  · obtain ⟨u, hu⟩ := hm.ok h
    exact hs.trans hu
  · rw [hb.nil]
    exact nofun

/-! ## Sequences -/

instance pure {a : α} [h : Known P K (f a)] : Gathers S P K f (Pure.pure a) := by
  refine ⟨fun hs hK hok => ?_⟩
  obtain ⟨rfl, rfl⟩ := pure_eq_ok.mp hok
  exact ⟨hs, h.all hK⟩

/-- What the first routine gives is known to the second. -/
instance bind [Carries X α] {m : ParseM α} {k : α → ParseM β} [hm : Gathers S P K parts m]
    [hk : ∀ a, Gathers S P (K ++ parts a) g (k a)] : Gathers S P K g (m >>= k) := by
  refine ⟨fun hs hK h => ?_⟩
  obtain ⟨a, s₁, hok, hok'⟩ := bind_eq_ok.mp h
  obtain ⟨hs₁, ha⟩ := hm.gathers hs hK hok
  exact (hk a).gathers hs₁ (fun x hx => (List.mem_append.1 hx).elim (hK x) (ha x)) hok'

theorem andThen [Carries X α] {m : ParseM α} {k : α → ParseM β} (hm : Gathers S P K parts m)
    (hk : ∀ a, Gathers S P (K ++ parts a) g (k a)) : Gathers S P K g (m >>= k) := bind

/-- A choice is followed by one routine for each case. -/
instance (priority := low) bindOption [Carries X α] {m : ParseM (Option α)}
    {k : Option α → ParseM β} [Gathers S P K parts m]
    [hn : Gathers S P (K ++ parts (none : Option α)) g (k none)]
    [hs : ∀ a : α, Gathers S P (K ++ parts (some a)) g (k (some a))] :
    Gathers S P K g (m >>= k) :=
  have : ∀ x, Gathers S P (K ++ parts x) g (k x) := Option.forall.2 ⟨hn, hs⟩
  bind

instance map [Carries X α] {m : ParseM α} {k : α → β} [Gathers S P K parts m]
    [∀ a, Known P (K ++ parts a) (g (k a))] : Gathers S P K g (k <$> m) :=
  inferInstanceAs (Gathers S P K g (m >>= fun a => Pure.pure (k a)))

instance ite {c : Prop} [Decidable c] {m m' : ParseM α} [hm : Gathers S P K f m]
    [hm' : Gathers S P K f m'] : Gathers S P K f (if c then m else m') := by
  split
  · exact hm
  · exact hm'

instance fail {fault : Fault} : Gathers S P K f (Parse.fail fault) :=
  ⟨fun _ _ h => absurd h fail_ne_ok⟩

instance unexpected : Gathers S P K f Parse.unexpected :=
  ⟨fun _ _ h => absurd h unexpected_ne_ok⟩

/-! ## Loops -/

section
variable [Carries X α]

theorem collect_go {step : ParseM (Item α)} [hstep : ∀ K, Gathers S P K parts step]
    (fuel : List Token) : Gathers S P K parts (collect.go step fuel) := by
  induction fuel generalizing K with
  | nil => exact pure
  | cons t fuel ih =>
    refine andThen (hstep K) fun x => ?_
    cases x with
    | stop => exact pure
    | last a => exact pure
    | more a => exact andThen ih fun as => pure

instance collect {step : ParseM (Item α)} [∀ K, Gathers S P K parts step] :
    Gathers S P K parts (Parse.collect step) :=
  ⟨fun {s} _ _ hs hK h => (collect_go s.ahead).gathers hs hK h⟩

instance commaItem {element : ParseM α} [Gathers S P K parts element] :
    Gathers S P K parts (Parse.commaItem element) := by
  unfold Parse.commaItem
  infer_instance

instance upTo {mark : String} {item : ParseM (Item α)} [∀ K, Gathers S P K parts item] :
    Gathers S P K parts (Parse.upTo mark item) := by
  unfold Parse.upTo
  infer_instance

end

end Gathers

/-! ## Runs -/

/-- What the routine for statements gathers, a run gathers. -/
theorem Runs.gathers [Carries X (Statement Span)] {S s s' : State} {P : X → Prop} {d : Deeper}
    [d.Regular] {os : List Outcome} (hd : Gathers S P [] parts d.statement) (h : Runs d s os s')
    (hs : Reached S s) : ∀ st, .ok st ∈ os → ∀ x ∈ parts st, P x := by
  induction h with
  | done _ => simp
  | @statement s s₁ _ st os _ hok _ ih =>
    obtain ⟨hs₁, hst⟩ := hd.gathers hs (List.forall_mem_nil _) hok
    intro st' hmem
    rcases List.mem_cons.1 hmem with heq | hmem
    · cases heq
      exact hst
    · exact ih hs₁ st' hmem
  | @failure s s₁ _ e os hne herror _ ih =>
    obtain ⟨u, -, hu, -⟩ := failure_reads hne herror
    intro st' hmem
    rcases List.mem_cons.1 hmem with heq | hmem
    · cases heq
    · exact ih (hs.trans hu) st' hmem

end Parse

end JsSyntax
