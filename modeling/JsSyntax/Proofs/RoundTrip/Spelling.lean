import JsSyntax.Parse.Statement
import JsSyntax.Proofs.RoundTrip.Expression

/-! # Trees that are taken as they are written

With enough nesting left, the routine of a tree's level takes the tokens of the tree, and the
accesses behind a callee are taken by the loop for callees, too (`Tree.spelled`). The induction is
on the tree; a part that is in parentheses, or nests for another reason, is taken with one level of
nesting less.
-/

set_option autoImplicit false

namespace JsSyntax

open Parse

/-- With so much nesting left, the tree is taken as it is written. -/
structure Tree.Spelled (n : Nat) (e : Tree) : Prop where
  grows : Grows (level n) e.precedence e.tokens e.toExpr
  callee : e.isCallee → (calleeLoop (level n)).Climbs e.tokens Anything e.toExpr

structure TargetTree.Spelled (n : Nat) (t : TargetTree) : Prop where
  grows : Grows (level n) t.precedence t.tokens t.toExpr
  callee : t.isCallee → (calleeLoop (level n)).Climbs t.tokens Anything t.toExpr

/-! ## Parts -/

section
variable {n : Nat} {e : Tree} (h : ∀ m, e.nesting ≤ m → e.Spelled m)
include h

/-- A part that is an expression of its own. -/
theorem Tree.nested (hn : e.nesting + 1 ≤ n) :
    Spells (level n).assignment .assignment e.tokens e.toExpr := by
  obtain ⟨m, rfl⟩ := Nat.exists_eq_add_of_le' (Nat.le_of_add_left_le hn)
  have hgrows := (h m (Nat.le_of_add_le_add_right hn)).grows
  exact (hgrows.looser (p := .assignment) (Nat.zero_le _)).spells

theorem Tree.placed {position : Precedence}
    (hn : nestingAt position e.precedence e.nesting ≤ n) :
    Grows (level n) position (placedAt position e.precedence e.tokens) e.toExpr := by
  unfold nestingAt at hn
  unfold placedAt
  split
  · next hle =>
    rw [if_pos hle] at hn
    exact (h n hn).grows.looser hle
  · next hle =>
    rw [if_neg hle] at hn
    refine (group_grows (Tree.nested h hn)).looser ?_
    cases position <;> decide

/-- The operand of a prefix operator. -/
theorem Tree.operand (hn : nestingAt .unary e.precedence e.nesting + 1 ≤ n) :
    Spells (level n).unary .unary (placedAt .unary e.precedence e.tokens) e.toExpr := by
  obtain ⟨m, rfl⟩ := Nat.exists_eq_add_of_le' (Nat.le_of_add_left_le hn)
  exact (Tree.placed h (Nat.le_of_add_le_add_right hn)).spells

theorem Tree.placed_callee
    (hn : (if e.isCallee then e.nesting else e.nesting + 1) ≤ n) :
    (calleeLoop (level n)).Climbs
      (if e.isCallee then e.tokens else parenthesized e.tokens) Anything e.toExpr := by
  split
  · next hcallee =>
    rw [if_pos hcallee] at hn
    exact (h n hn).callee hcallee
  · next hcallee =>
    rw [if_neg hcallee] at hn
    exact callee_of_primary (group_grows (Tree.nested h hn))

end

@[simp] theorem placedAt_assignment (own : Precedence) (u : List Token) :
    placedAt .assignment own u = u :=
  if_pos (Nat.zero_le _)

/-! ## Trees -/

theorem le_nestingAt (position own : Precedence) (n : Nat) : n ≤ nestingAt position own n := by
  unfold nestingAt
  split
  · exact Nat.le_refl n
  · exact Nat.le_succ n

theorem TargetTree.isUpdateTarget (t : TargetTree) : t.toExpr.isUpdateTarget := by
  cases t <;> rfl

theorem TargetTree.rank_chain_le (t : TargetTree) :
    Precedence.chain.rank ≤ t.precedence.rank := by
  cases t with
  | name => show Precedence.chain.rank ≤ Precedence.primary.rank; decide
  | field | element => exact Nat.le_refl _

/-- The objects of accesses in a callee are in no parentheses. -/
theorem Tree.placedAt_callee {e : Tree} (h : e.isCallee) (u : List Token) :
    placedAt .chain e.precedence u = u := by
  refine if_pos ?_
  cases e with
  | target t => exact t.rank_chain_le
  | this | boolean | null | string | array | new =>
    show Precedence.chain.rank ≤ Precedence.primary.rank
    decide
  | _ => exact absurd h (by simp [Tree.isCallee])

/-- With so much nesting left, the arguments are taken as they are written. -/
def Tree.ItemsSpelled (n : Nat) (args : List Tree) : Prop :=
  Precedence.assignment.Leads (Tree.listTokens args) ∧
    TakesItems (commaItem (level n).assignment) (Tree.listTokens args) (· = .mark ")")
      (fun as => Expr.mapAll (fun _ => ()) as = Tree.allToExprs args)

theorem Tree.arguments_taken {n : Nat} {args : List Tree}
    (h : args ≠ [] → Tree.ItemsSpelled n args) :
    Takes (arguments (level n)) (Tree.listTokens args ++ [.mark ")"]) Anything
      (fun as => Expr.mapAll (fun _ => ()) as = Tree.allToExprs args) := by
  cases args with
  | nil => exact noArguments_taken
  | cons e es =>
    obtain ⟨hleads, hitems⟩ := h (List.cons_ne_nil e es)
    exact Parse.arguments_taken hleads hitems

mutual

theorem Tree.spelled : (e : Tree) → ∀ n, e.nesting ≤ n → e.Spelled n
  | .target t, n, h => by
    simp only [Tree.nesting] at h
    obtain ⟨hgrows, hcallee⟩ := t.spelled n h
    refine ⟨?_, fun hc => ?_⟩
    · simpa only [Tree.precedence, Tree.tokens, Tree.toExpr] using hgrows
    · simp only [Tree.isCallee] at hc
      simpa only [Tree.tokens, Tree.toExpr] using hcallee hc
  | .this, n, _ => ⟨this_grows, fun _ => callee_of_primary this_grows⟩
  | .boolean value, n, _ => ⟨boolean_grows value, fun _ => callee_of_primary (boolean_grows value)⟩
  | .null, n, _ => ⟨null_grows, fun _ => callee_of_primary null_grows⟩
  | .string q, n, _ => ⟨string_grows q, fun _ => callee_of_primary (string_grows q)⟩
  | .array slots, n, h => by
    simp only [Tree.nesting] at h
    have hgrows := array_grows (Tree.slots_taken slots n h)
    exact ⟨hgrows, fun _ => callee_of_primary hgrows⟩
  | .unary op argument, n, h => by
    simp only [Tree.nesting] at h
    refine ⟨?_, nofun⟩
    simp only [Tree.tokens, Tree.toExpr]
    exact unary_grows op (Tree.operand argument.spelled h)
  | .await argument, n, h => by
    simp only [Tree.nesting] at h
    refine ⟨?_, nofun⟩
    simp only [Tree.tokens, Tree.toExpr]
    exact await_grows (Tree.operand argument.spelled h)
  | .update op before argument, n, h => by
    refine ⟨?_, nofun⟩
    cases before with
    | true =>
      obtain ⟨m, rfl⟩ := Nat.exists_eq_add_of_le' (Nat.le_of_add_left_le h)
      have hargument := (argument.spelled m (Nat.le_of_add_le_add_right h)).grows
      have hrank : Precedence.unary.rank ≤ argument.precedence.rank :=
        Nat.le_trans (by decide) argument.rank_chain_le
      exact updateBefore_grows op (hargument.looser hrank).spells argument.isUpdateTarget
    | false =>
      have hargument := (argument.spelled n h).grows
      exact updateAfter_grows op (hargument.looser argument.rank_chain_le).spells
        argument.isUpdateTarget
  | .binary op left right, n, h => by
    simp only [Tree.nesting, Nat.max_le] at h
    refine ⟨?_, nofun⟩
    simp only [Tree.tokens, Tree.toExpr]
    exact binary_grows op (Tree.placed left.spelled h.1) (Tree.placed right.spelled h.2).spells
  | .logical op left right, n, h => by
    simp only [Tree.nesting, Nat.max_le] at h
    refine ⟨?_, nofun⟩
    simp only [Tree.tokens, Tree.toExpr]
    exact logical_grows op (Tree.placed left.spelled h.1) (Tree.placed right.spelled h.2).spells
  | .conditional test consequent alternate, n, h => by
    simp only [Tree.nesting, ← Nat.add_max_add_right, Nat.max_le] at h
    refine ⟨?_, nofun⟩
    simp only [Tree.tokens, Tree.toExpr, placedAt_assignment]
    exact conditional_grows (Tree.placed test.spelled h.1).spells
      (Tree.nested consequent.spelled h.2.1) (Tree.nested alternate.spelled h.2.2)
  | .assign op left right, n, h => by
    simp only [Tree.nesting, Nat.max_le] at h
    have hleft := (left.spelled n h.1).grows
    have hrank : Precedence.or.rank ≤ left.precedence.rank :=
      Nat.le_trans (by decide) left.rank_chain_le
    refine ⟨?_, nofun⟩
    simp only [Tree.tokens, Tree.toExpr, placedAt_assignment]
    exact assign_grows op (hleft.looser hrank).spells (Tree.nested right.spelled h.2)
  | .call callee args, n, h => by
    simp only [Tree.nesting, Nat.max_le] at h
    refine ⟨?_, nofun⟩
    simp only [Tree.tokens, Tree.toExpr]
    exact call_grows (Tree.placed callee.spelled h.1)
      (Tree.arguments_taken fun hne => Tree.items_spelled args hne n h.2)
  | .new callee args, n, h => by
    simp only [Tree.nesting] at h
    obtain ⟨m, rfl⟩ := Nat.exists_eq_add_of_le' (Nat.le_of_add_left_le h)
    obtain ⟨hcallee, hargs⟩ := Nat.max_le.1 (Nat.le_of_add_le_add_right h)
    have hconstruction := construction_takes (Tree.placed_callee callee.spelled hcallee)
      (Tree.arguments_taken fun hne => Tree.items_spelled args hne m hargs)
    have hgrows : Grows (level (m + 1)) .primary (Tree.new callee args).tokens
        (Tree.new callee args).toExpr := by
      simp only [Tree.tokens, Tree.toExpr]
      exact new_grows hconstruction
    exact ⟨hgrows, fun _ => callee_of_primary hgrows⟩

theorem Tree.items_spelled : (args : List Tree) → args ≠ [] → ∀ n, Tree.listNesting args ≤ n →
    Tree.ItemsSpelled n args
  | [e], _, n, h => by
    simp only [Tree.listNesting, Nat.max_le] at h
    have he := Tree.nested e.spelled h.1
    unfold Tree.ItemsSpelled
    simp only [Tree.listTokens, Tree.allToExprs, placedAt_assignment]
    exact ⟨he.leads, lastArgument he⟩
  | e :: e' :: es, _, n, h => by
    rw [Tree.listNesting, Nat.max_le] at h
    have he := Tree.nested e.spelled h.1
    obtain ⟨-, hitems⟩ := Tree.items_spelled (e' :: es) (List.cons_ne_nil _ _) n h.2
    obtain ⟨x, u, hu, hx⟩ := id he.leads
    unfold Tree.ItemsSpelled
    rw [Tree.listTokens, Tree.allToExprs, placedAt_assignment]
    · exact ⟨⟨x, _, by rw [hu]; rfl, hx⟩, moreArguments he hitems⟩
    · exact List.cons_ne_nil _ _

theorem Tree.slots_taken : (slots : List (Option Tree)) → ∀ n, Tree.slotsNesting slots ≤ n →
    TakesItems (slot (level n)) (Tree.slotsTokens slots) (· = .mark "]")
      (fun as => Expr.mapSlots (fun _ => ()) as = Tree.slotsToExprs slots)
  | [], _, _ => noSlots_taken
  | none :: slots, n, h => hole_taken (Tree.slots_taken slots n h)
  | some e :: slots, n, h => by
    simp only [Tree.slotsNesting, Nat.max_le] at h
    simp only [Tree.slotsTokens, placedAt_assignment]
    exact element_slot_taken (Tree.slots_taken slots n h.2) (Tree.nested e.spelled h.1)

theorem TargetTree.spelled : (t : TargetTree) → ∀ n, t.nesting ≤ n → t.Spelled n
  | .name name, n, _ => ⟨name_grows name.text, fun _ => callee_of_primary (name_grows name.text)⟩
  | .field object name, n, h => by
    simp only [TargetTree.nesting] at h
    refine ⟨?_, fun hc => ?_⟩
    · simp only [TargetTree.tokens, TargetTree.toExpr]
      exact field_grows name (Tree.placed object.spelled h)
    · simp only [TargetTree.tokens, TargetTree.toExpr]
      have hobject := (object.spelled n (Nat.le_trans (le_nestingAt _ _ _) h)).callee hc
      rw [Tree.placedAt_callee hc]
      exact callee_field name hobject
  | .element object index, n, h => by
    simp only [TargetTree.nesting, Nat.max_le] at h
    refine ⟨?_, fun hc => ?_⟩
    · simp only [TargetTree.tokens, TargetTree.toExpr, placedAt_assignment]
      exact element_grows (Tree.placed object.spelled h.1) (Tree.nested index.spelled h.2)
    · simp only [TargetTree.tokens, TargetTree.toExpr, placedAt_assignment]
      have hobject := (object.spelled n (Nat.le_trans (le_nestingAt _ _ _) h.1)).callee hc
      rw [Tree.placedAt_callee hc]
      exact callee_element hobject (Tree.nested index.spelled h.2)

end

end JsSyntax
