import JsSyntax.Proofs.RoundTrip.Consumes
import JsSyntax.Proofs.RoundTrip.Tree

/-! # Words in front of a key

A word modifies a member unless the token behind it shows that it is the key. What stands where a
modifier may stand is described by `Opens word u`: the tokens `u` do not end a name, and the word is
no modifier at their start. A key opens so, whatever it is, and so does a star, and a modifier of
another kind.
-/

set_option autoImplicit false

namespace JsSyntax

/-- A word with a meaning in its place only, or a name. -/
def Token.name (text : String) : Token := .word (wordKind text) text

namespace Parse

variable {α β : Type}

/-! ## Words -/

/-- The token is the word, reserved or not. -/
def IsWord (word : String) (t : Token) : Prop :=
  (t.kind = .identifier ∨ t.kind = .keyword) ∧ t.value = word

/-- Behind such a token a member goes on after its name. -/
def endsName (t : Token) : Bool :=
  t.kind = .eof || t.isOperator "="
    || (t.kind = .punctuation && ["(", ":", ",", "\x7d", ";"].contains t.value)

theorem acceptWord_yes {word : String} {s : State} {x : Token} {rest : List Token}
    (hs : s.rest = x :: rest) (hx : IsWord word x) :
    acceptWord word s = .ok true (s.behind x rest) := by
  have hcurrent : s.current = x := by simp [State.current, hs]
  unfold IsWord at hx
  rw [acceptWord, peek_bind, hcurrent, if_pos hx, bind_of_ok (discard_advance_of_rest hs)]
  rfl

theorem acceptWord_no {word : String} {s : State} (h : ¬ IsWord word s.current) :
    acceptWord word s = .ok false s := by
  unfold IsWord at h
  rw [acceptWord, peek_bind, if_neg h]
  rfl

theorem acceptModifier_eq (word : String) (s : State) :
    acceptModifier word s = if endsName s.second then .ok false s else acceptWord word s := by
  show (if endsName s.second then pure false else acceptWord word : ParseM Bool) s = _
  split <;> rfl

/-- A word in front of a token that ends no name is read. -/
theorem Consumes.modifier_yes {word : String} {x y : Token} {u rest : List Token}
    {f : Bool → ParseM β} {Q : β → Prop} (hx : IsWord word x) (hy : endsName y = false)
    (h : Consumes (f true) (y :: u) rest Q) :
    Consumes (Parse.acceptModifier word >>= f) (x :: y :: u) rest Q := by
  intro s hs
  have hsecond : s.second = y := by simp [State.second, hs]
  have hmodifier : acceptModifier word s = .ok true (s.behind x (y :: u ++ rest)) := by
    rw [acceptModifier_eq, hsecond, hy]
    exact acceptWord_yes hs hx
  rw [bind_of_ok hmodifier]
  exact h rfl

theorem Consumes.modifier_no {word : String} {x y : Token} {u rest : List Token}
    {f : Bool → ParseM β} {Q : β → Prop} (hx : IsWord word x → endsName y)
    (h : Consumes (f false) (x :: y :: u) rest Q) :
    Consumes (Parse.acceptModifier word >>= f) (x :: y :: u) rest Q := by
  intro s hs
  have hcurrent : s.current = x := by simp [State.current, hs]
  have hsecond : s.second = y := by simp [State.second, hs]
  have hmodifier : acceptModifier word s = .ok false s := by
    rw [acceptModifier_eq, hsecond]
    split
    · rfl
    · next hy => exact acceptWord_no fun hword => hy (hx (hcurrent ▸ hword))
  rw [bind_of_ok hmodifier]
  exact h hs

/-! ## Where modifiers may stand -/

/-- The tokens end no name, and the word is no modifier at their start. -/
def Opens (word : String) (u : List Token) : Prop :=
  ∃ x y v, u = x :: y :: v ∧ endsName x = false ∧ (IsWord word x → endsName y)

/-- A word that is written if the flag is set. -/
def modifier (b : Bool) (word : String) : List Token := if b then [.name word] else []

/-- The star of a generator, if it is one. -/
def star (generator : Bool) : List Token := if generator then [.operator "*"] else []

/-- The words that may modify a member. -/
def modifierWords : List String := ["static", "async", "get", "set"]

section
variable {u v rest : List Token} {word other : String} {b : Bool}

theorem isWord_name (h : word ∈ modifierWords) : IsWord word (.name word) := by
  have hall : ∀ word ∈ modifierWords, wordKind word = .identifier ∨ wordKind word = .keyword := by
    decide
  exact ⟨hall word h, rfl⟩

theorem endsName_name (h : word ∈ modifierWords) : endsName (.name word) = false := by
  have hall : ∀ word ∈ modifierWords, endsName (.name word) = false := by decide
  exact hall word h

namespace Opens

theorem star (h : Opens word u) : Opens word (Parse.star b ++ u) := by
  obtain ⟨x, y, v, rfl, -⟩ := id h
  cases b with
  | false => exact h
  | true =>
    refine ⟨.operator "*", x, y :: v, rfl, rfl, fun hword => ?_⟩
    rcases hword.1 with hk | hk <;> cases hk

/-- A modifier of another kind. -/
theorem modifier (h : Opens word u) (hother : other ∈ modifierWords) (hne : other ≠ word) :
    Opens word (Parse.modifier b other ++ u) := by
  obtain ⟨x, y, v, rfl, -⟩ := id h
  cases b with
  | false => exact h
  | true =>
    exact ⟨.name other, x, y :: v, rfl, endsName_name hother, fun hword => absurd hword.2 hne⟩

/-- No member starts with a mark that ends a body, a statement or a member. -/
theorem exists_cons (h : Opens word u) : ∃ x v, u = x :: v ∧
    x.isPunctuation "\x7d" = false ∧ x.isPunctuation ";" = false := by
  obtain ⟨x, y, v, hv, hx, -⟩ := h
  have hends : ∀ mark ∈ ["\x7d", ";"], x.isPunctuation mark = false := by
    rintro mark hmark
    refine Bool.eq_false_iff.2 fun hpunctuation => ?_
    obtain ⟨hkind, hvalue⟩ := Token.is_iff.1 hpunctuation
    simp only [List.mem_cons, List.not_mem_nil, or_false] at hmark
    rcases hmark with rfl | rfl <;> simp [endsName, hkind, hvalue] at hx
  exact ⟨x, _, hv, hends _ (by decide), hends _ (by decide)⟩

end Opens

/-- A modifier is read exactly if it is written. -/
theorem Consumes.acceptModifier {f : Bool → ParseM β} {Q : β → Prop} (hword : word ∈ modifierWords)
    (hu : Opens word u) (h : Consumes (f b) u rest Q) :
    Consumes (Parse.acceptModifier word >>= f) (Parse.modifier b word ++ u) rest Q := by
  obtain ⟨x, y, v, rfl, hx, hno⟩ := hu
  cases b with
  | false => exact .modifier_no hno h
  | true => exact .modifier_yes (isWord_name hword) hx h

/-- A star is read exactly if it is written. -/
theorem Consumes.acceptStar {x : Token} {f : Bool → ParseM β} {Q : β → Prop}
    (hx : x.kind ≠ .operator) (h : Consumes (f b) (x :: v) rest Q) :
    Consumes (acceptOperator "*" >>= f) (star b ++ x :: v) rest Q := by
  cases b with
  | false => exact .accept_no (by simp [Token.is, hx]) h
  | true => exact .accept_yes rfl h

theorem Consumes.accessor_none {f : Option Bool → ParseM β} {Q : β → Prop} (hget : Opens "get" u)
    (hset : Opens "set" u) (h : Consumes (f none) u rest Q) :
    Consumes (acceptAccessor >>= f) u rest Q := by
  rw [acceptAccessor, bind_assoc]
  refine Consumes.acceptModifier (b := false) (by decide) hget ?_
  show Consumes ((Parse.acceptModifier "set" >>= _) >>= f) u rest Q
  rw [bind_assoc]
  exact Consumes.acceptModifier (b := false) (by decide) hset h

/-- The word of a getter or a setter. -/
theorem Consumes.accessor_some (getter : Bool) {f : Option Bool → ParseM β} {Q : β → Prop}
    (hu : ∀ word, Opens word u) (h : Consumes (f (some getter)) u rest Q) :
    Consumes (acceptAccessor >>= f) (.name (if getter then "get" else "set") :: u) rest Q := by
  rw [acceptAccessor, bind_assoc]
  cases getter with
  | true => exact Consumes.acceptModifier (b := true) (by decide) (hu "get") h
  | false =>
    have hset : Opens "get" (modifier true "set" ++ u) :=
      .modifier (hu "get") (by decide) (by decide)
    refine Consumes.acceptModifier (b := false) (by decide) hset ?_
    show Consumes ((Parse.acceptModifier "set" >>= _) >>= f) _ rest Q
    rw [bind_assoc]
    exact Consumes.acceptModifier (b := true) (by decide) (hu "set") h

end

end Parse

end JsSyntax
