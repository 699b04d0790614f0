import JsSyntax.Proofs.Nodes.Written

/-! # Shallow nodes

`Node.Shallow n x`: on every path down from the node `x`, fewer than `n` nodes below it stand in a
guarded position. A child in a guarded position has to be shallower than its parent by one
(`Role.room`); nothing else costs anything.
-/

set_option autoImplicit false

namespace JsSyntax

variable {σ : Type}

/-- How shallow a child with the role has to be below a node that is shallow at `n + 1`. -/
def Role.room (role : Role) (n : Nat) : Nat := bif role.guarded then n else n + 1

theorem Role.room_le (role : Role) (n : Nat) : n ≤ role.room n := by
  unfold room
  cases role.guarded
  · exact Nat.le_succ n
  · exact Nat.le_refl n

namespace Node

def Shallow (n : Nat) (x : Node σ) : Prop :=
  ∀ ⦃path m⦄, x.Path path m → path.countP Role.guarded < n

/-- The children are as shallow as their roles ask for. -/
def Fits (n : Nat) (sites : List (Site σ)) : Prop :=
  ∀ ⦃role c⦄, (role, c) ∈ sites → c.Shallow (role.room n)

namespace Shallow

variable {n k : Nat} {x : Node σ}

theorem mono (h : x.Shallow n) (hle : n ≤ k) : x.Shallow k :=
  fun _ _ hp => Nat.lt_of_lt_of_le (h hp) hle

/-- A node that has been read one level deeper fits anywhere. -/
theorem room (h : x.Shallow n) (role : Role) : x.Shallow (role.room n) := h.mono (role.room_le n)

theorem succ (h : x.Shallow n) : x.Shallow (n + 1) := h.mono (Nat.le_succ n)

/-- A step of a path: the node is shallow exactly if its children fit. -/
theorem iff_fits : x.Shallow (n + 1) ↔ Fits n x.sites := by
  constructor
  · intro h role c hc path m hp
    have hcount := h (.down hc hp)
    rw [List.countP_cons] at hcount
    unfold Role.room
    cases hrole : role.guarded
    · simpa [hrole] using hcount
    · simpa [hrole] using hcount
  · intro h path m hp
    cases hp with
    | here => exact Nat.succ_pos n
    | @down _ c _ role path hc hp =>
      have hcount := h hc hp
      unfold Role.room at hcount
      rw [List.countP_cons]
      cases hrole : role.guarded
      · simpa [hrole] using hcount
      · simpa [hrole] using hcount

theorem of_sites (h : Fits n x.sites) : x.Shallow (n + 1) := iff_fits.2 h

theorem fits (h : x.Shallow (n + 1)) : Fits n x.sites := iff_fits.1 h

theorem pos (h : x.Shallow n) : 0 < n := h .here

/-- What a node is written as is no shallower than the node. -/
theorem of_written (h : x.written.Shallow n) : x.Shallow n := by
  induction x using Node.induct generalizing n with
  | step x ih =>
    obtain ⟨k, rfl⟩ : ∃ k, n = k + 1 := ⟨n - 1, by have := h.pos; omega⟩
    refine of_sites fun role c hc => ?_
    rcases mem_sites_written hc with hsame | hwritten
    · exact (hsame ▸ h).fits hc
    · have hroom : role.written.room k = role.room k := by rw [Role.room, role.guarded_written]; rfl
      exact ih c (mem_children_iff.2 ⟨role, hc⟩) (hroom ▸ h.fits hwritten)

theorem pattern {p : Pattern σ} (h : (Node.expr p.toExpr).Shallow n) : (Node.pattern p).Shallow n :=
  of_written h

theorem leaf (hx : x.sites = []) : x.Shallow (n + 1) :=
  of_sites (hx ▸ fun _ _ hc => nomatch hc)

end Shallow

/-! ## Lists of children -/

namespace Fits

variable {n : Nat} {ss ss' : List (Site σ)} {role : Role} {c : Node σ} {α : Type} {f : α → Node σ}

theorem nil : Fits n ([] : List (Site σ)) := nofun

theorem cons (hc : c.Shallow (role.room n)) (h : Fits n ss) : Fits n ((role, c) :: ss) := by
  intro role' c' hmem
  rcases List.mem_cons.1 hmem with heq | hmem
  · cases heq
    exact hc
  · exact h hmem

theorem one (hc : c.Shallow (role.room n)) : Fits n [(role, c)] := cons hc nil

theorem two {role' : Role} {c' : Node σ} (hc : c.Shallow (role.room n))
    (hc' : c'.Shallow (role'.room n)) : Fits n [(role, c), (role', c')] := cons hc (one hc')

theorem append (h : Fits n ss) (h' : Fits n ss') : Fits n (ss ++ ss') := by
  intro role c hmem
  rcases List.mem_append.1 hmem with hmem | hmem
  · exact h hmem
  · exact h' hmem

theorem map {as : List α} (h : ∀ a ∈ as, (f a).Shallow (role.room n)) :
    Fits n (as.map fun a => (role, f a)) := by
  intro role' c hmem
  obtain ⟨a, ha, heq⟩ := List.mem_map.1 hmem
  cases heq
  exact h a ha

theorem option {a : Option α} (h : ∀ x ∈ a, (f x).Shallow (role.room n)) :
    Fits n (a.toList.map fun x => (role, f x)) :=
  map fun x hx => h x (Option.mem_toList.1 hx)

theorem slots {as : List (Option α)} (h : ∀ a ∈ as, ∀ x ∈ a, (f x).Shallow (role.room n)) :
    Fits n (as.filterMap (Option.map fun x => (role, f x))) := by
  intro role' c hmem
  obtain ⟨a, ha, hsome⟩ := List.mem_filterMap.1 hmem
  obtain ⟨x, hx, heq⟩ := Option.map_eq_some_iff.1 hsome
  cases heq
  exact h a ha x hx

/-- Names have nothing below them. -/
theorem names (ids : List (Ident σ)) : Fits n (ids.map fun id => (Role.part, Node.ident id)) :=
  map fun _ _ => .leaf rfl

theorem name (id : Ident σ) : Fits n [(Role.part, Node.ident id)] := one (.leaf rfl)

end Fits

end Node

end JsSyntax
