import JsSyntax.Proofs.Looping.Advances
import JsSyntax.Proofs.Looping.Program

/-! # Progress, bounds and balance of every routine

From any place among the tokens and at any depth up to the limit, the code of a routine comes to an
end, with loops and nested calls that have no bound of their own (`routines_settle`). It ends among
the same tokens and not further back, behind another token if it has found something, and at the
depth at which it started. On the way the depth is never below that and never above the limit. The
loops of the top level are code as well: recovery (`resync_eq`), and the statements of a program one
after another (`everyOutcome_eq`).
-/

set_option autoImplicit false

namespace JsSyntax

namespace Parse

variable {α : Type}

/-! ## Places among the tokens -/

/-- The state in which `c` of the tokens have been read. -/
def State.amid (tokens : List Token) (stop : Position) (events : List Event) (c : Nat) : State where
  last := (tokens.take c).getLast?
  rest := tokens.drop c
  stop := stop
  events := events

section
variable {tokens : List Token} {stop : Position} {events : List Event} {c : Nat}

theorem State.Reads.amid {u : List Token} {s' : State}
    (h : (State.amid tokens stop events c).Reads u s') (hc : c ≤ tokens.length) :
    s' = .amid tokens stop s'.events (c + u.length) ∧ c + u.length ≤ tokens.length := by
  obtain ⟨last, rest, stop', events'⟩ := s'
  obtain ⟨hrest, hlast, hstop⟩ := h
  have hrest : tokens.drop c = u ++ rest := hrest
  have hlength := congrArg List.length hrest
  rw [List.length_drop, List.length_append] at hlength
  have hbehind : tokens.drop (c + u.length) = rest := by
    rw [← List.drop_drop, hrest, List.drop_left]
  have hbefore : tokens.take (c + u.length) = tokens.take c ++ u := by
    rw [List.take_add, hrest, List.take_left]
  refine ⟨?_, by omega⟩
  simp only [State.amid, State.mk.injEq, hbehind, hbefore, List.getLast?_append]
  exact ⟨hlast, trivial, hstop, trivial⟩

end

theorem length_amid (tokens : List Token) (stop : Position) (events : List Event) (c : Nat) :
    (State.amid tokens stop events c).rest.length = tokens.length - c :=
  List.length_drop

/-! ## Code that settles -/

/-- The parser at the depth `depth` that has read `c` of the tokens. -/
def Counter.amid (tokens : List Token) (stop : Position) (events : List Event) (c depth : Nat) :
    Counter :=
  ⟨.amid tokens stop events c, depth⟩

/-- From the place `c` among the tokens and the depth `depth` on, the code of `f` comes to an end,
and to what `f` comes to. It ends among the same tokens, not further back, and at the same depth,
and the depth has been between that and the limit. Behind a success, `gain` holds of the value and
the place. -/
structure Settles (f : Deeper → ParseM α) [Coded f] (tokens : List Token) (stop : Position)
    (events : List Event) (c depth : Nat) (gain : α → Nat → Prop) : Prop where
  ends : ∃ depths u,
    Performs library (Coded.code f) (.amid tokens stop events c depth) depths u
  result : ∀ {depths u},
    Performs library (Coded.code f) (.amid tokens stop events c depth) depths u →
    u = (Counter.amid tokens stop events c depth).result
      (f (level (nestingLimit - depth)) (.amid tokens stop events c))
  between : ∀ {depths u},
    Performs library (Coded.code f) (.amid tokens stop events c depth) depths u →
    ∀ n ∈ depths, depth ≤ n ∧ n ≤ nestingLimit
  stays : ∀ {depths u},
    Performs library (Coded.code f) (.amid tokens stop events c depth) depths u →
    ∃ c' events', u.counter = .amid tokens stop events' c' depth ∧ c ≤ c' ∧ c' ≤ tokens.length ∧
      ∀ a k, u = .ok a k → gain a c'

theorem Settles.of_gain {f : Deeper → ParseM α} [Coded f] {tokens : List Token} {stop : Position}
    {events : List Event} {c depth : Nat} {gain : α → Nat → Prop} (hc : c ≤ tokens.length)
    (hdepth : depth ≤ nestingLimit)
    (hgain : ∀ {a events' c'}, f (level (nestingLimit - depth)) (.amid tokens stop events c) =
      .ok a (.amid tokens stop events' c') → c ≤ c' → c' ≤ tokens.length → gain a c') :
    Settles f tokens stop events c depth gain := by
  have hleft : (Counter.amid tokens stop events c depth).Left (nestingLimit - depth) := by
    show depth + (nestingLimit - depth) = nestingLimit
    omega
  have hiff (u : Upshot α) :
      (∃ depths, Performs library (Coded.code f) (.amid tokens stop events c depth) depths u) ↔
        u = (Counter.amid tokens stop events c depth).result
          (f (level (nestingLimit - depth)) (.amid tokens stop events c)) := by
    have h := performs_iff (L := library) (u := u) (Coded.paced (f := f)) hleft
    rwa [Coded.run_code] at h
  refine ⟨?_, fun h => (hiff _).1 ⟨_, h⟩, fun h => (h.depth_bounds hdepth).2, fun {_ u} h => ?_⟩
  · obtain ⟨depths, h⟩ := (hiff _).2 rfl
    exact ⟨depths, _, h⟩
  · obtain ⟨v, hv⟩ := h.reads Coded.paced
    obtain ⟨hs, hle⟩ := State.Reads.amid hv hc
    have hd : u.counter.depth = depth := (h.depth_bounds hdepth).1
    refine ⟨_, _, congrArg₂ Counter.mk hs hd, Nat.le_add_right _ _, hle, ?_⟩
    rintro a k rfl
    have hok := (Counter.result_eq_ok.1 ((hiff _).1 ⟨_, h⟩).symm).1
    have hs : k.state = .amid tokens stop k.state.events (c + v.length) := hs
    rw [hs] at hok
    exact hgain hok (Nat.le_add_right _ _) hle

/-! ## Routines and the top level -/

/-- **Progress, bounds and balance.** At any place `c` among the tokens, and at any depth up to the
limit, every routine settles, and ends behind `c` if it finds something that is made of tokens.
Recovery settles, and passes a token if one is ahead. The statements one after another settle, and
end behind all tokens. -/
theorem routines_settle (tokens : List Token) (stop : Position) (events : List Event)
    (c depth : Nat) (hc : c ≤ tokens.length) (hdepth : depth ≤ nestingLimit) :
    (∀ {α : Type} (r : Routine α), r.Ready (.amid tokens stop events c) →
      Settles (fun d => r.run d) tokens stop events c depth fun a c' => r.HasTokens a → c < c') ∧
    Settles (fun _ => resync) tokens stop events c depth (fun _ c' =>
      (recover (.amid tokens stop events c)).rest = tokens.drop c' ∧
        (c < tokens.length → c < c')) ∧
    Settles (fun d => everyOutcome d) tokens stop events c depth fun os c' =>
      os = (outcomes (level (nestingLimit - depth)) (tokens.length - c)
        (.amid tokens stop events c)).1 ∧ c' = tokens.length := by
  have hlength := length_amid tokens stop events c
  refine ⟨fun r hr => .of_gain hc hdepth fun h _ _ ha => ?_, .of_gain hc hdepth fun h _ _ => ?_,
    .of_gain hc hdepth fun h _ hle => ?_⟩
  · have := r.lt_of_ok hr ha h
    simp only [length_amid] at this
    omega
  · rw [resync_eq, EStateM.Result.ok.injEq] at h
    refine ⟨congrArg State.rest h.2, fun hlt => ?_⟩
    have hne : (State.amid tokens stop events c).rest ≠ [] := by
      rw [← List.length_pos_iff, hlength]
      omega
    have := (recover_reads _).lt_of_ne_nil (passed_ne_nil hne)
    rw [h.2] at this
    simp only [length_amid] at this
    omega
  · rw [everyOutcome_eq, hlength, EStateM.Result.ok.injEq] at h
    have hruns : Runs (level (nestingLimit - depth)) _ _ _ :=
      runs_outcomes (s := .amid tokens stop events c) (Nat.le_of_eq hlength)
    have hend := congrArg List.length hruns.reads.2
    rw [h.2, length_amid, List.length_nil] at hend
    exact ⟨h.1.symm, by omega⟩

/-- One level below the limit, in front of a construction whose arguments are not closed. -/
theorem routines_settle_construction :
    Settles (fun d => Routine.nestedConstruction.run d) (startOf "new f(1").rest
      (startOf "new f(1").stop [] 0 63 fun a c' =>
        Routine.nestedConstruction.HasTokens a → 0 < c' := by
  have hready : Routine.nestedConstruction.Ready
      (.amid (startOf "new f(1").rest (startOf "new f(1").stop [] 0) := by
    show (State.amid _ _ _ _).current.isKeyword "new" = true
    decide +kernel
  exact (routines_settle _ _ _ 0 63 (Nat.zero_le _) (by decide)).1 _ hready

end Parse

end JsSyntax
