import Mathlib.Data.List.Forall2
import JsSyntax.Ast.Json
import JsSyntax.Proofs.Nodes.WellFormed

/-! # Equal JSON values

Two JSON values are the same if they have the same items in the same places and the same values
under the same keys; the order of the fields of an object is no part of its value. A value that
comes from a leaf of a tree determines the leaf.
-/

set_option autoImplicit false

namespace JsSyntax

namespace Json

inductive Same : Json → Json → Prop where
  | null : Same .null .null
  | bool (value : Bool) : Same (.bool value) (.bool value)
  | nat (value : Nat) : Same (.nat value) (.nat value)
  | number (value : Double) : Same (.number value) (.number value)
  | str (value : String) : Same (.str value) (.str value)
  | arr {xs ys : List Json} : List.Forall₂ Same xs ys → Same (.arr xs) (.arr ys)
  | obj {fs gs : List (String × Json)} :
      (∀ key, (fs.lookup key).isSome = (gs.lookup key).isSome) →
      (∀ key x y, fs.lookup key = some x → gs.lookup key = some y → Same x y) →
      Same (.obj fs) (.obj gs)

namespace Same

mutual

theorem refl : (j : Json) → j.Same j
  | .null => .null
  | .bool value => .bool value
  | .nat value => .nat value
  | .number value => .number value
  | .str value => .str value
  | .arr items => .arr (refl_items items)
  | .obj fields => .obj (fun _ => rfl) fun key x y hx hy => by
    obtain rfl := Option.some.inj (hx.symm.trans hy)
    exact refl_field fields key x hx

theorem refl_items : (items : List Json) → List.Forall₂ Same items items
  | [] => .nil
  | x :: items => .cons (refl x) (refl_items items)

theorem refl_field : (fields : List (String × Json)) → ∀ key x,
    fields.lookup key = some x → x.Same x
  | [], _, _, h => nomatch h
  | (key', y) :: fields, key, x, h => by
    rw [List.lookup_cons] at h
    split at h
    · obtain rfl := Option.some.inj h
      exact refl y
    · exact refl_field fields key x h

end

/-! ## Parts -/

theorem bool_eq {a b : Bool} (h : Same (.bool a) (.bool b)) : a = b := by
  cases h
  rfl

theorem nat_eq {a b : Nat} (h : Same (.nat a) (.nat b)) : a = b := by
  cases h
  rfl

theorem str_eq {a b : String} (h : Same (.str a) (.str b)) : a = b := by
  cases h
  rfl

theorem items {xs ys : List Json} (h : Same (.arr xs) (.arr ys)) : List.Forall₂ Same xs ys := by
  cases h
  assumption

/-- Under one key there are two values that are the same. -/
theorem field {fs gs : List (String × Json)} {x y : Json} (h : Same (.obj fs) (.obj gs))
    (key : String) (hx : fs.lookup key = some x) (hy : gs.lookup key = some y) : Same x y := by
  cases h with
  | obj _ h => exact h key x y hx hy

end Same

/-- The type of a node. -/
def type? : Json → Option String
  | .obj fields =>
    match fields.lookup "type" with
    | some (.str type) => some type
    | _ => none
  | _ => none

theorem Same.type?_eq {j j' : Json} (h : Same j j') : j.type? = j'.type? := by
  cases h with
  | @obj fs gs hkeys hfields =>
    have hkey := hkeys "type"
    have hvalue := hfields "type"
    unfold type?
    dsimp only
    cases hfs : fs.lookup "type" with
    | none =>
      rw [hfs] at hkey
      rw [Option.isSome_eq_false_iff.1 hkey.symm |> Option.isNone_iff_eq_none.1]
    | some x =>
      rw [hfs] at hkey
      obtain ⟨y, hy⟩ := Option.isSome_iff_exists.1 hkey.symm
      rw [hy]
      cases hvalue x y hfs hy <;> rfl
  | _ => rfl

/-- Lists whose items determine what they come from. -/
theorem eq_of_items_same {α : Type} {f : α → Json} (hf : ∀ {a b}, (f a).Same (f b) → a = b)
    {as bs : List α} (h : (ofList f as).Same (ofList f bs)) : as = bs := by
  have hitems := h.items
  rw [List.forall₂_map_left_iff, List.forall₂_map_right_iff] at hitems
  exact List.forall₂_eq_eq_eq ▸ hitems.imp fun _ _ => hf

end Json

/-! ## Leaves -/

theorem Span.eq_of_same {s s' : Span} (h : s.toJson.Same s'.toJson) : s = s' := by
  obtain ⟨⟨offset, line, column⟩, ⟨offset', line', column'⟩⟩ := s
  obtain ⟨⟨offset₁, line₁, column₁⟩, ⟨offset₂, line₂, column₂⟩⟩ := s'
  obtain rfl : offset = offset₁ := (h.field "start" rfl rfl).nat_eq
  obtain rfl : line = line₁ := (h.field "line" rfl rfl).nat_eq
  obtain rfl : column = column₁ := (h.field "column" rfl rfl).nat_eq
  obtain rfl : offset' = offset₂ := (h.field "end" rfl rfl).nat_eq
  obtain rfl : line' = line₂ := (h.field "endLine" rfl rfl).nat_eq
  obtain rfl : column' = column₂ := (h.field "endColumn" rfl rfl).nat_eq
  rfl

/-- The span of a token is part of its object. -/
theorem Token.eq_of_same {t t' : Token} (h : t.toJson.Same t'.toJson) : t = t' := by
  obtain ⟨kind, value, ⟨⟨offset, line, column⟩, ⟨offset', line', column'⟩⟩⟩ := t
  obtain ⟨kind₁, value₁, ⟨⟨offset₁, line₁, column₁⟩, ⟨offset₂, line₂, column₂⟩⟩⟩ := t'
  obtain rfl : kind = kind₁ := TokenKind.name_inj (h.field "type" rfl rfl).str_eq
  obtain rfl : value = value₁ := (h.field "value" rfl rfl).str_eq
  obtain rfl : offset = offset₁ := (h.field "start" rfl rfl).nat_eq
  obtain rfl : line = line₁ := (h.field "line" rfl rfl).nat_eq
  obtain rfl : column = column₁ := (h.field "column" rfl rfl).nat_eq
  obtain rfl : offset' = offset₂ := (h.field "end" rfl rfl).nat_eq
  obtain rfl : line' = line₂ := (h.field "endLine" rfl rfl).nat_eq
  obtain rfl : column' = column₂ := (h.field "endColumn" rfl rfl).nat_eq
  rfl

theorem Location.eq_of_same {l l' : Location} (h : l.toJson.Same l'.toJson) : l = l' := by
  obtain ⟨line, column⟩ := l
  obtain ⟨line', column'⟩ := l'
  obtain rfl : line = line' := (h.field "line" rfl rfl).nat_eq
  obtain rfl : column = column' := (h.field "column" rfl rfl).nat_eq
  rfl

theorem Diagnostic.eq_of_same {d d' : Diagnostic} (h : d.toJson.Same d'.toJson) : d = d' := by
  obtain ⟨message, location⟩ := d
  obtain ⟨message', location'⟩ := d'
  obtain rfl : message = message' := (h.field "message" rfl rfl).str_eq
  obtain rfl : location = location' := Location.eq_of_same (h.field "location" rfl rfl)
  rfl

theorem Ident.eq_of_same {id id' : Ident Span} (h : id.toJson.Same id'.toJson) : id = id' := by
  obtain ⟨name, s⟩ := id
  obtain ⟨name', s'⟩ := id'
  obtain rfl : name = name' := (h.field "name" rfl rfl).str_eq
  obtain rfl : s = s' := Span.eq_of_same (h.field "span" rfl rfl)
  rfl

theorem Ident.eq_of_option_same {id id' : Option (Ident Span)}
    (h : (Json.ofOption Ident.toJson id).Same (Json.ofOption Ident.toJson id')) : id = id' := by
  cases id <;> cases id'
  · rfl
  · cases h
  · cases h
  · exact congrArg some (Ident.eq_of_same h)

theorem TemplateElement.eq_of_same {q q' : TemplateElement Span} (h : q.toJson.Same q'.toJson) :
    q = q' := by
  obtain ⟨cooked, raw, tail, s⟩ := q
  obtain ⟨cooked', raw', tail', s'⟩ := q'
  have hvalue := h.field "value" rfl rfl
  obtain rfl : cooked = cooked' := (hvalue.field "cooked" rfl rfl).str_eq
  obtain rfl : raw = raw' := (hvalue.field "raw" rfl rfl).str_eq
  obtain rfl : tail = tail' := (h.field "tail" rfl rfl).bool_eq
  obtain rfl : s = s' := Span.eq_of_same (h.field "span" rfl rfl)
  rfl

/-- The value of a literal need not show in its object, but its lexeme does. -/
theorem Literal.eq_of_same {l l' : Literal Span} (hl : l.WellFormed) (hl' : l'.WellFormed)
    (h : l.toJson.Same l'.toJson) : l = l' := by
  obtain ⟨value, raw, s⟩ := l
  obtain ⟨value', raw', s'⟩ := l'
  obtain rfl : raw = raw' := (h.field "raw" rfl rfl).str_eq
  obtain rfl : s = s' := Span.eq_of_same (h.field "span" rfl rfl)
  obtain rfl : value = value' := Option.some.inj (hl.symm.trans hl')
  rfl

/-! ## Operators and kinds -/

theorem UnaryOp.symbol_inj {a b : UnaryOp} (h : a.symbol = b.symbol) : a = b := by
  cases a <;> cases b <;> first | rfl | exact absurd h (by decide)

theorem UpdateOp.symbol_inj {a b : UpdateOp} (h : a.symbol = b.symbol) : a = b := by
  cases a <;> cases b <;> first | rfl | exact absurd h (by decide)

theorem BinaryOp.symbol_inj {a b : BinaryOp} (h : a.symbol = b.symbol) : a = b := by
  cases a <;> cases b <;> first | rfl | exact absurd h (by decide)

theorem LogicalOp.symbol_inj {a b : LogicalOp} (h : a.symbol = b.symbol) : a = b := by
  cases a <;> cases b <;> first | rfl | exact absurd h (by decide)

theorem AssignmentOp.symbol_inj {a b : AssignmentOp} (h : a.symbol = b.symbol) : a = b := by
  cases a <;> cases b <;> first | rfl | exact absurd h (by decide)

theorem VariableKind.keyword_inj {a b : VariableKind} (h : a.keyword = b.keyword) : a = b := by
  cases a <;> cases b <;> first | rfl | exact absurd h (by decide)

theorem MethodKind.name_inj {a b : MethodKind} (h : a.name = b.name) : a = b := by
  cases a <;> cases b <;> first | rfl | exact absurd h (by decide)

theorem PropertyKind.name_inj {a b : PropertyKind} (h : a.name = b.name) : a = b := by
  cases a <;> cases b <;> first | rfl | exact absurd h (by decide)

end JsSyntax
