import JsSyntax.Proofs.Nodes.Spans
import JsSyntax.Proofs.Token.Munch

/-! # Well-formed nodes

The flags of a node restate what its shape says, and some shapes never occur: `Node.WellFormed`
says so of one node, `Node.Sound` of a node and all nodes below it. Soundness goes from the children
of a node to the node, and from an expression to the pattern it is read as.

A literal is well formed when its value is the one that its lexeme writes (`literalValue?`).
-/

set_option autoImplicit false

namespace JsSyntax

variable {σ : Type}

/-! ## Literals -/

/-- The value of the literal that is written as `raw`. -/
def literalValue? (raw : String) : Option LiteralValue :=
  if raw = "null" then some .null
  else if raw = "true" then some (.boolean true)
  else if raw = "false" then some (.boolean false)
  else if raw.toList.head? = some '\x22' ∨ raw.toList.head? = some '\x27' then
    some (.string (literalBody raw))
  else (Double.ofNumeral? raw).map .number

def Literal.WellFormed (l : Literal σ) : Prop := literalValue? l.raw = some l.value

theorem literalValue?_quoted {raw : String}
    (h : raw.toList.head? = some '\x22' ∨ raw.toList.head? = some '\x27') :
    literalValue? raw = some (.string (literalBody raw)) := by
  have hword : ∀ word : String, ¬ (word.toList.head? = some '\x22' ∨
      word.toList.head? = some '\x27') → raw ≠ word := by
    rintro word hword rfl
    exact hword h
  rw [literalValue?, if_neg (hword "null" (by decide)), if_neg (hword "true" (by decide)),
    if_neg (hword "false" (by decide)), if_pos h]

/-- No numeral starts with a quote. -/
theorem Decimal.ofNumeral?_quote {quote : Char} (h : quote = '\x22' ∨ quote = '\x27')
    (cs : List Char) : Decimal.ofNumeral? (quote :: cs) = none := by
  rcases h with rfl | rfl <;> rfl

theorem literalValue?_number {raw : String} {value : Double}
    (h : Double.ofNumeral? raw = some value) : literalValue? raw = some (.number value) := by
  have hword : ∀ word : String, Double.ofNumeral? word = none → raw ≠ word := by
    rintro word hword rfl
    exact Option.some_ne_none _ (h.symm.trans hword)
  have hquote : ¬ (raw.toList.head? = some '\x22' ∨ raw.toList.head? = some '\x27') := by
    intro hq
    obtain ⟨quote, hhead, hquote⟩ : ∃ quote, raw.toList.head? = some quote ∧
        (quote = '\x22' ∨ quote = '\x27') := by
      rcases hq with hq | hq
      · exact ⟨_, hq, .inl rfl⟩
      · exact ⟨_, hq, .inr rfl⟩
    obtain ⟨cs, hcs⟩ := List.head?_eq_some_iff.1 hhead
    rw [Double.ofNumeral?, hcs, Decimal.ofNumeral?_quote hquote] at h
    cases h
  rw [literalValue?, if_neg (hword "null" (by decide)), if_neg (hword "true" (by decide)),
    if_neg (hword "false" (by decide)), if_neg hquote, h, Option.map_some]

/-! ## Members -/

/-- A literal that is a key is a string or a number. -/
def PropertyKey.WellFormed : PropertyKey σ → Prop
  | .literal ⟨.string _, _, _⟩ | .literal ⟨.number _, _, _⟩ => True
  | .literal _ => False
  | .ident _ | .computed _ => True

structure Property.WellFormed (p : Property σ) : Prop where
  key : p.key.WellFormed
  computed : p.computed = p.key.isComputed
  /-- A shorthand is one name, which is its key and its value. -/
  shorthand : p.shorthand → p.kind = .init ∧ p.method = false ∧
    ∃ id, p.key = .ident id ∧ p.value = .ident id
  method : p.method → p.kind = .init ∧ ∃ f, p.value = .function f ∧ f.id = none
  accessor : p.kind ≠ .init → p.method = false ∧
    ∃ f, p.value = .function f ∧ f.id = none ∧ f.async = false ∧ f.generator = false

structure PatternProperty.WellFormed (p : PatternProperty σ) : Prop where
  key : p.key.WellFormed
  computed : p.computed = p.key.isComputed
  shorthand : p.shorthand → ∃ id, p.key = .ident id ∧ p.value = .ident id

/-- A pattern property that is written as a well-formed property is well formed. -/
theorem PatternProperty.WellFormed.of_property {p : PatternProperty σ}
    (h : p.toProperty.WellFormed) : p.WellFormed := by
  obtain ⟨key, value, computed, shorthand, s⟩ := p
  refine ⟨h.key, h.computed, fun hs => ?_⟩
  obtain ⟨-, -, id, hkey, hvalue⟩ := h.shorthand hs
  refine ⟨id, hkey, ?_⟩
  cases value with
  | ident id' => exact congrArg Pattern.ident (Expr.ident.inj hvalue)
  | _ => cases hvalue

structure MethodDefinition.WellFormed (m : MethodDefinition σ) : Prop where
  key : m.key.WellFormed
  computed : m.computed = m.key.isComputed
  unnamed : m.value.id = none
  accessor : m.kind = .get ∨ m.kind = .set → m.value.async = false ∧ m.value.generator = false
  constructor_iff : m.kind = .constructor ↔ m.static = false ∧ m.computed = false ∧
    ¬ (m.kind = .get ∨ m.kind = .set) ∧ m.key.name? = some "constructor"

/-- The kind of a class member that is no accessor. -/
theorem methodKind_wellFormed (key : PropertyKey σ) (static computed : Bool) :
    ¬ (Parse.methodKind none static computed key = .get ∨
      Parse.methodKind none static computed key = .set) ∧
    (Parse.methodKind none static computed key = .constructor ↔
      static = false ∧ computed = false ∧ key.name? = some "constructor") := by
  unfold Parse.methodKind
  dsimp only
  split
  · next h => simpa [and_assoc] using h
  · next h => simpa [and_assoc] using h

/-! ## Nodes -/

namespace Node

/-- What a node says of its parts is so. -/
def WellFormed : Node σ → Prop
  | .expr (.update _ _ argument _) => argument.isUpdateTarget
  | .expr (.member _ name computed _) => computed = name.isComputed
  | .expr (.template quasis expressions _) => ∃ quasi, quasis = [quasi] ∧ quasi.tail ∧
      expressions = []
  | .pattern (.member _ name computed _) => computed = name.isComputed
  | .property value => value.WellFormed
  | .patternProperty value => value.WellFormed
  | .method value => value.WellFormed
  | .declaration value => value.declarations ≠ []
  | .literal value => value.WellFormed
  | _ => True

/-- The node and all nodes below it are well formed. -/
def Sound (n : Node σ) : Prop := ∀ m, n.Contains m → m.WellFormed

namespace Sound

variable {n c : Node σ}

theorem of_children (hself : n.WellFormed) (h : ∀ c ∈ n.children, c.Sound) : n.Sound := by
  intro m hm
  rcases Relation.ReflTransGen.cases_head hm with rfl | ⟨c, hc, hm⟩
  · exact hself
  · exact h c hc m hm

theorem self (h : n.Sound) : n.WellFormed := h n .refl

theorem child (h : n.Sound) (hc : c ∈ n.children) : c.Sound := fun m hm => h m (hm.head hc)

theorem ident (id : Ident σ) : (Node.ident id).Sound := .of_children trivial nofun

end Sound

/-! ## Patterns -/

mutual

/-- The pattern that a sound expression is read as is sound. -/
theorem Sound.pattern : (p : Pattern σ) → (Node.expr p.toExpr).Sound → (Node.pattern p).Sound
  | .ident _, h => .of_children trivial fun _ hc => h.child hc
  | .member .., h => .of_children h.self fun _ hc => h.child hc
  | .array elements _, h => .of_children trivial (Sound.slots elements fun _ hc => h.child hc)
  | .object properties _, h =>
    .of_children trivial (Sound.patternProperties properties fun _ hc => h.child hc)

theorem Sound.slots : (ps : List (Option (Pattern σ))) →
    (∀ c ∈ (Pattern.slotsToExprs ps).filterMap (Option.map .expr), Node.Sound c) →
    ∀ c ∈ ps.filterMap (Option.map .pattern), Node.Sound c
  | [], _ => nofun
  | none :: ps, h => Sound.slots ps h
  | some p :: ps, h => List.forall_mem_cons.2
    ⟨Sound.pattern p (h _ List.mem_cons_self),
      Sound.slots ps fun c hc => h c (List.mem_cons_of_mem _ hc)⟩

theorem Sound.patternProperties : (ps : List (PatternProperty σ)) →
    (∀ c ∈ (PatternProperty.allToProperties ps).map .property, Node.Sound c) →
    ∀ c ∈ ps.map .patternProperty, Node.Sound c
  | [], _ => nofun
  | ⟨key, value, computed, shorthand, s⟩ :: ps, h => by
    obtain ⟨hp, hps⟩ := List.forall_mem_cons.1 h
    refine List.forall_mem_cons.2 ⟨.of_children (PatternProperty.WellFormed.of_property hp.self) ?_,
      Sound.patternProperties ps hps⟩
    exact List.forall_mem_cons.2 ⟨hp.child List.mem_cons_self, List.forall_mem_singleton.2
      (Sound.pattern value (hp.child (List.mem_cons_of_mem _ List.mem_cons_self)))⟩

end

end Node

/-! ## Tokens -/

/-- What the kind of a token says about its text. -/
structure Token.Lexed (t : Token) : Prop where
  null : t.kind = .null → t.value = "null"
  boolean : t.kind = .boolean → t.value = "true" ∨ t.value = "false"
  string : t.kind = .string → t.value.toList.head? = some '\x22' ∨ t.value.toList.head? = some '\x27'

/-- A token of another kind may have any text. -/
theorem Token.lexed_of_kind {kind : TokenKind} {lexeme : List Char} {p : Position}
    (h : kind ∉ [.null, .boolean, .string]) : (Token.of kind lexeme p).Lexed where
  null hk := absurd (by simp [← hk, Token.of]) h
  boolean hk := absurd (by simp [← hk, Token.of]) h
  string hk := absurd (by simp [← hk, Token.of]) h

theorem Token.lexed_of_string {lexeme : List Char} {p : Position}
    (h : lexeme.head? = some '\x22' ∨ lexeme.head? = some '\x27') :
    (Token.of .string lexeme p).Lexed where
  null hk := by cases hk
  boolean hk := by cases hk
  string _ := by rwa [Token.of, String.toList_ofList]

theorem wordKindOf_eq_null {v : List Char} (h : wordKindOf v = .null) : v = "null".toList := by
  unfold wordKindOf at h
  split at h
  · cases h
  split at h
  · assumption
  · split at h <;> cases h

theorem wordKindOf_eq_boolean {v : List Char} (h : wordKindOf v = .boolean) :
    v = "true".toList ∨ v = "false".toList := by
  unfold wordKindOf at h
  split at h
  · assumption
  split at h
  · cases h
  · split at h <;> cases h

theorem wordKindOf_ne_string (v : List Char) : wordKindOf v ≠ .string := by
  unfold wordKindOf
  split
  · decide
  split
  · decide
  split <;> decide

theorem head?_of_quoted {kind : TokenKind} {quote : Char} {text v : List Char}
    (ha : (quotedRule kind quote).Applies text) (ht : (quotedRule kind quote).Takes text v) :
    v.head? = some quote := by
  obtain ⟨_, rfl, rest, rfl⟩ := (quotedRule kind quote).covers ha ht
  rfl

theorem LexemeAt.lexed {kind : TokenKind} {lexeme rest : List Char}
    (h : LexemeAt kind lexeme rest) (p : Position) : (Token.of kind lexeme p).Lexed := by
  obtain ⟨rule, hrule, ha, ht, rfl⟩ := h.first.exists_rule
  simp only [lexicalRules, List.mem_cons, List.not_mem_nil, or_false] at hrule
  rcases hrule with rfl | rfl | rfl | rfl | rfl | rfl | rfl | rfl | rfl
  -- Comments, numbers, templates and unknown characters have kinds of their own.
  · exact Token.lexed_of_kind (show TokenKind.comment ∉ _ by decide)
  · exact Token.lexed_of_kind (show TokenKind.comment ∉ _ by decide)
  · exact Token.lexed_of_kind (show TokenKind.number ∉ _ by decide)
  · exact Token.lexed_of_string (.inl (head?_of_quoted ha ht))
  · exact Token.lexed_of_string (.inr (head?_of_quoted ha ht))
  · exact Token.lexed_of_kind (show TokenKind.templateString ∉ _ by decide)
  · refine ⟨fun hk => ?_, fun hk => ?_, fun hk => ?_⟩
    · rw [Token.of, wordKindOf_eq_null hk, String.ofList_toList]
    · rcases wordKindOf_eq_boolean hk with rfl | rfl
      · exact .inl String.ofList_toList
      · exact .inr String.ofList_toList
    · exact absurd hk (wordKindOf_ne_string lexeme)
  · refine Token.lexed_of_kind ?_
    change markKindOf lexeme ∉ _
    unfold markKindOf
    split <;> decide
  · exact Token.lexed_of_kind (show TokenKind.unknown ∉ _ by decide)

theorem lexed_of_mem_tokenize {source : String} {t : Token} (ht : t ∈ tokenize source)
    (hkind : t.kind ≠ .eof) : t.Lexed := by
  obtain ⟨before, lexeme, rest, kind, -, rfl, hl⟩ :=
    (lexes_tokenize source).mem_split t ht hkind
  exact hl.lexed _

end JsSyntax
