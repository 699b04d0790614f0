import JsSyntax.Proofs.RoundTrip.Expression
import JsSyntax.Proofs.RoundTrip.Local
import JsSyntax.Proofs.RoundTrip.Modifiers

/-! # Members as they are written

A `Method` is a member of a class or of an object with its modifiers, its key, its parameters and
its block; `tokens` writes it down. The block and an expression in brackets are any tokens that are
read as such (`Method.Reads`). Then the routines for members read what is written, with the
modifiers and the key that it is written with (`Method.definition_consumes`,
`Method.property_consumes`).
-/

set_option autoImplicit false

namespace JsSyntax

open Parse

/-! ## Keys -/

/-- The key of a member as it is written. -/
inductive MemberKey where
  /-- A word, reserved or not. -/
  | word (name : MemberName)
  | string (q : QuotedText)
  | number (text : String) (value : Double) (valid : Double.ofNumeral? text = some value)
  /-- An expression in brackets. -/
  | computed (tokens : List Token) (value : Expr Unit)

namespace MemberKey

def tokens : MemberKey → List Token
  | .word name => [.name name.text]
  | .string q => [.word .string q.lexeme]
  | .number text _ _ => [.word .number text]
  | .computed tokens _ => .mark "[" :: (tokens ++ [.mark "]"])

def toKey : MemberKey → PropertyKey Unit
  | .word name => .ident ⟨name.text, ()⟩
  | .string q => .literal ⟨.string (String.ofList q.body), q.lexeme, ()⟩
  | .number text value _ => .literal ⟨.number value, text, ()⟩
  | .computed _ value => .computed value

def isComputed : MemberKey → Bool
  | .computed _ _ => true
  | _ => false

/-- With so much nesting left, the expression of a computed key is read in front of its bracket. -/
def Reads (n : Nat) : MemberKey → Prop
  | .computed tokens value => Once (level n).assignment tokens [.mark "]"] (·.erase = value)
  | _ => True

end MemberKey

/-! ## Methods -/

/-- What stands in front of the key. -/
inductive MethodForm where
  | method (async generator : Bool)
  | accessor (getter : Bool)

namespace MethodForm

def tokens : MethodForm → List Token
  | .method async generator => modifier async "async" ++ star generator
  | .accessor getter => [.name (if getter then "get" else "set")]

def isAsync : MethodForm → Bool
  | .method async _ => async
  | .accessor _ => false

def isGenerator : MethodForm → Bool
  | .method _ generator => generator
  | .accessor _ => false

def isMethod : MethodForm → Bool
  | .method _ _ => true
  | .accessor _ => false

def accessor? : MethodForm → Option Bool
  | .method _ _ => none
  | .accessor getter => some getter

end MethodForm

/-- Names, with commas between them. -/
def nameTokens : List Name → List Token
  | [] => []
  | [name] => [.word .identifier name.text]
  | name :: names => .word .identifier name.text :: .mark "," :: nameTokens names

structure Method where
  form : MethodForm
  key : MemberKey
  params : List Name
  /-- The tokens of the block. -/
  body : List Token
  block : Block Unit

namespace Method

variable (m : Method)

/-- The key and what stands behind it. -/
def keyTokens : List Token :=
  m.key.tokens ++ .mark "(" :: (nameTokens m.params ++ .mark ")" :: m.body)

def tokens : List Token := m.form.tokens ++ m.keyTokens

/-- With so much nesting left, the block is read, and so is the expression of a computed key. -/
structure Reads (n : Nat) : Prop where
  key : m.key.Reads n
  block : Once (Parse.block (level n)) m.body [] (·.erase = m.block)

def function : Func Unit :=
  ⟨none, m.params.map fun name => ⟨name.text, ()⟩, m.block, m.form.isGenerator, m.form.isAsync, ()⟩

/-- The method as a member of a class. -/
def definition (static : Bool) : MethodDefinition Unit where
  key := m.key.toKey
  value := m.function
  kind := match m.form with
    | .accessor true => .get
    | .accessor false => .set
    | .method _ _ =>
      if static = false ∧ m.key.isComputed = false ∧ m.key.toKey.name? = some "constructor" then
        .constructor
      else .method
  computed := m.key.isComputed
  static := static
  span := ()

/-- The method as a member of an object. -/
def property : Property Unit where
  key := m.key.toKey
  value := .function m.function
  kind := match m.form with
    | .accessor true => .get
    | .accessor false => .set
    | .method _ _ => .init
  computed := m.key.isComputed
  shorthand := false
  method := m.form.isMethod
  span := ()

end Method

def MethodDefinition.erase (m : MethodDefinition Span) : MethodDefinition Unit := m.map fun _ => ()

def Property.erase (p : Property Span) : Property Unit := p.map fun _ => ()

def PropertyKey.erase (key : PropertyKey Span) : PropertyKey Unit := key.map fun _ => ()

def Func.erase (f : Func Span) : Func Unit := f.map fun _ => ()

/-! ## Reading a key -/

theorem Token.kind_name (text : String) :
    (Token.name text).kind ∈ [.identifier, .keyword, .boolean, .null] := by
  show wordKind text ∈ _
  unfold wordKind
  split_ifs <;> decide

theorem isName_name (text : String) : isName (.name text) := by
  unfold Token.name wordKind
  split_ifs <;> rfl

theorem numberLiteral_consumes {text : String} {value : Double} {rest : List Token}
    (h : Double.ofNumeral? text = some value) :
    Consumes numberLiteral [.word .number text] rest (· = ⟨.number value, text, default⟩) := by
  refine .peek_cons ?_
  have hvalue : Double.ofNumeral? (Token.word .number text).value = some value := h
  rw [hvalue]
  exact .advance (.pure rfl)

namespace MemberKey

variable {n : Nat} (key : MemberKey)

/-- A key is a word or a literal, or it starts with a bracket. -/
theorem exists_cons : ∃ x v, key.tokens = x :: v ∧ endsName x = false ∧ x.kind ≠ .operator ∧
    (v = [] ∨ x.kind = .punctuation) := by
  cases key with
  | word name =>
    refine ⟨.name name.text, [], rfl, ?_⟩
    have hk := Token.kind_name name.text
    generalize Token.name name.text = x at hk
    simp only [List.mem_cons, List.not_mem_nil, or_false] at hk
    rcases hk with hk | hk | hk | hk <;> simp [endsName, Token.isOperator, Token.is, hk]
  | string q =>
    have hkind : TokenKind.string ≠ .operator := by decide
    exact ⟨.word .string q.lexeme, [], rfl, rfl, hkind, .inl rfl⟩
  | number text value valid =>
    have hkind : TokenKind.number ≠ .operator := by decide
    exact ⟨.word .number text, [], rfl, rfl, hkind, .inl rfl⟩
  | computed tokens value =>
    have hkind : TokenKind.punctuation ≠ .operator := by decide
    exact ⟨.mark "[", _, rfl, rfl, hkind, .inr rfl⟩

/-- In front of a parenthesis or a colon no word is a modifier. -/
theorem opens {y : Token} {u : List Token} (hy : endsName y) (word : String) :
    Opens word (key.tokens ++ y :: u) := by
  obtain ⟨x, v, hv, hx, -, hshort⟩ := key.exists_cons
  obtain ⟨z, w, hw⟩ := List.exists_cons_of_ne_nil
    (List.append_ne_nil_of_right_ne_nil v (List.cons_ne_nil y u))
  refine ⟨x, z, w, by rw [hv, List.cons_append, hw], hx, fun hword => ?_⟩
  rcases hshort with rfl | hk
  · obtain ⟨rfl, -⟩ := List.cons_eq_cons.1 hw
    exact hy
  · rcases hword.1 with hk' | hk' <;> cases hk.symm.trans hk'

theorem takes (h : key.Reads n) : Takes (propertyKey (level n)) key.tokens
    (fun t => ¬ t.isKeyword "else")
    (fun x => x.1.erase = key.toKey ∧ x.2 = key.isComputed) := by
  cases key with
  | word name =>
    refine .peek_cons ?_
    have hmark : (Token.name name.text).isPunctuation "[" = false :=
      is_eq_false_of_kind fun hk => absurd (hk ▸ Token.kind_name name.text) (by decide)
    rw [hmark, if_neg Bool.false_ne_true, if_pos (isName_name _)]
    exact .discard_advance (.pure ⟨rfl, rfl⟩)
  | string q =>
    have hliteral : Takes stringLiteral [.word .string q.lexeme] (fun t => ¬ t.isKeyword "else")
      (· = ⟨.string (literalBody q.lexeme), q.lexeme, default⟩) := .advance (.pure rfl)
    refine .peek_cons (.bind_nil hliteral (fun _ => id) fun l hl => .pure ?_)
    subst hl
    rw [literalBody_lexeme]
    exact ⟨rfl, rfl⟩
  | number text value valid =>
    have hliteral : Takes numberLiteral [.word .number text] (fun t => ¬ t.isKeyword "else")
        (· = ⟨.number value, text, default⟩) :=
      Consumes.takes fun _ => numberLiteral_consumes valid
    refine .peek_cons (.bind_nil hliteral (fun _ => id) fun l hl => .pure ?_)
    subst hl
    exact ⟨rfl, rfl⟩
  | computed tokens value =>
    intro s t rest hs ht
    have hright : ∀ x ∈ (t :: rest).head?, ¬ x.isKeyword "else" := by
      rintro x ⟨⟩
      exact ht
    have hkey : Consumes (level n).assignment tokens (.mark "]" :: t :: rest) _ :=
      h.before_mark rfl hright
    refine Consumes.peek_cons (.discard_advance (.bind hkey fun e he => ?_)) hs
    exact .require rfl (.pure ⟨congrArg _ he, rfl⟩)

end MemberKey

/-! ## Reading a function -/

namespace Parse

section
variable {rest : List Token}

theorem identifier_takes {place : NamePlace} (name : Name) {stops : Token → Prop} :
    Takes (identifier place) [.word .identifier name.text] stops (· = ⟨name.text, default⟩) := by
  have hkind : (Token.word .identifier name.text).kind = .identifier := rfl
  refine .peek_cons ?_
  rw [if_pos hkind]
  exact .advance (.pure rfl)

/-- Layout does not count. -/
def SameNames (names : List Name) (ids : List (Ident Span)) : Prop :=
  ids.map (Ident.map fun _ => ()) = names.map fun name => ⟨name.text, ()⟩

theorem nameItems_take : (names : List Name) → names ≠ [] →
    TakesItems (commaItem (identifier .parameter)) (nameTokens names) (· = .mark ")")
      (SameNames names)
  | [name], _ => by
    have hname : Takes (identifier .parameter) [.word .identifier name.text] Anything _ :=
      identifier_takes name
    refine .last ((commaItem_last hname ?_).mono (fun _ => id) ?_)
    · rintro t rfl
      exact ⟨trivial, rfl⟩
    · rintro _ ⟨a, rfl, rfl⟩
      exact ⟨_, rfl, rfl⟩
  | name :: name' :: names, _ => by
    have hname : Takes (identifier .parameter) [.word .identifier name.text] Anything _ :=
      identifier_takes name
    have hitems := nameItems_take (name' :: names) (List.cons_ne_nil _ _)
    have hstep : Takes (commaItem (identifier .parameter))
        ([.word .identifier name.text] ++ [.mark ","]) Anything (fun item =>
          ∃ a, item = .more a ∧ ∀ ids, SameNames (name' :: names) ids →
            SameNames (name :: name' :: names) (a :: ids)) := by
      refine (commaItem_more hname trivial).mono (fun _ => id) ?_
      rintro _ ⟨a, rfl, rfl⟩
      exact ⟨_, rfl, fun ids hids => congrArg (List.cons _) hids⟩
    exact .more (List.cons_ne_nil _ _) hstep (fun _ _ => trivial) hitems

theorem parameters_consumes (names : List Name) :
    Consumes parameters (.mark "(" :: (nameTokens names ++ [.mark ")"])) rest
      (SameNames names) := by
  refine .require rfl ?_
  cases names with
  | nil => exact .isMarkNext (b := true) rfl (.require rfl (.pure rfl))
  | cons name names =>
    obtain ⟨v, hv⟩ : ∃ v, nameTokens (name :: names) = .word .identifier name.text :: v := by
      cases names <;> exact ⟨_, rfl⟩
    have hitems := (nameItems_take (name :: names) (List.cons_ne_nil _ _)).takes
    rw [hv] at hitems ⊢
    refine .isMarkNext (b := false) rfl (hitems.bind_consumes rfl fun ids hids => ?_)
    exact .require rfl (.pure hids)

end

end Parse

namespace Method

variable {n : Nat} {m : Method} {rest : List Token}

theorem function_consumes (h : m.Reads n) :
    Consumes (methodFunction (level n) m.form.isAsync m.form.isGenerator)
      (.mark "(" :: (nameTokens m.params ++ .mark ")" :: m.body)) rest (·.erase = m.function) := by
  have htokens : Token.mark "(" :: (nameTokens m.params ++ .mark ")" :: m.body) =
      .mark "(" :: (nameTokens m.params ++ [.mark ")"]) ++ m.body := by simp
  rw [htokens]
  refine .peek fun _ => .bind (parameters_consumes m.params) fun ids hids => ?_
  refine .bind_nil (h.block.block_consumes rest) fun b hb => .spanFrom fun span => .pure ?_
  have hids : ids.map (Ident.map fun _ => ()) = _ := hids
  have hb : b.map (fun _ => ()) = _ := hb
  simp [Func.erase, Func.map, function, hids, hb]

theorem keyTokens_opens (word : String) : Opens word m.keyTokens := m.key.opens (by decide) word

theorem keyTokens_cons : ∃ x v, m.keyTokens = x :: v ∧ x.kind ≠ .operator := by
  obtain ⟨x, v, hv, -, hx, -⟩ := m.key.exists_cons
  exact ⟨x, _, by rw [keyTokens, hv]; rfl, hx⟩

section
variable {word : String}

theorem tokens_method {async generator : Bool} (h : m.form = .method async generator) :
    m.tokens = modifier async "async" ++ (star generator ++ m.keyTokens) := by
  rw [tokens, h, MethodForm.tokens, List.append_assoc]

theorem tokens_accessor {getter : Bool} (h : m.form = .accessor getter) :
    m.tokens = .name (if getter then "get" else "set") :: m.keyTokens := by
  rw [tokens, h]
  rfl

theorem opens_method {async generator : Bool} (hne : "async" ≠ word) :
    Opens word (modifier async "async" ++ (star generator ++ m.keyTokens)) :=
  (m.keyTokens_opens word).star.modifier (by decide) hne

theorem opens_accessor {getter : Bool} (hget : "get" ≠ word) (hset : "set" ≠ word) :
    Opens word (.name (if getter then "get" else "set") :: m.keyTokens) := by
  cases getter with
  | true => exact (m.keyTokens_opens word).modifier (b := true) (by decide) hget
  | false => exact (m.keyTokens_opens word).modifier (b := true) (by decide) hset

theorem tokens_opens (h : word ∉ modifierWords) : Opens word m.tokens := by
  have hne : ∀ other ∈ modifierWords, other ≠ word := fun other hother heq => h (heq ▸ hother)
  cases hform : m.form with
  | method async generator =>
    rw [tokens_method hform]
    exact opens_method (hne _ (by decide))
  | accessor getter =>
    rw [tokens_accessor hform]
    exact opens_accessor (hne _ (by decide)) (hne _ (by decide))

end

/-! ### Members of classes -/

/-- What follows the modifiers of a member of a class. -/
def definitionRest (d : Deeper) (start : Span) (static async generator : Bool)
    (accessor : Option Bool) : ParseM (MethodDefinition Span) := do
  let (key, computed) ← propertyKey d
  let value ← methodFunction d async generator
  return ⟨key, value, methodKind accessor static computed key, computed, static, ← spanFrom start⟩

theorem name?_erase (key : PropertyKey Span) : key.erase.name? = key.name? := by
  cases key with
  | ident id => rfl
  | literal value => obtain ⟨_ | _ | _ | _, raw, span⟩ := value <;> rfl
  | computed value => rfl

theorem methodKind_eq (static : Bool) {key : PropertyKey Span} (hkey : key.erase = m.key.toKey) :
    methodKind m.form.accessor? static m.key.isComputed key = (m.definition static).kind := by
  unfold definition MethodForm.accessor?
  cases m.form with
  | accessor getter => cases getter <;> rfl
  | method async generator =>
    simp only [methodKind, ← name?_erase, hkey]
    cases static <;> cases m.key.isComputed <;> simp

theorem definitionRest_consumes (h : m.Reads n) (start : Span) (static : Bool) :
    Consumes (definitionRest (level n) start static m.form.isAsync m.form.isGenerator
      m.form.accessor?) m.keyTokens rest (·.erase = m.definition static) := by
  refine (m.key.takes h.key).bind_consumes (by decide) ?_
  rintro ⟨key, computed⟩ ⟨hkey, hcomputed⟩
  refine .bind_nil (function_consumes h) fun value hvalue => .spanFrom fun span => .pure ?_
  have hkind := methodKind_eq static hkey
  have hkey' : key.map (fun _ => ()) = m.key.toKey := hkey
  have hvalue' : value.map (fun _ => ()) = m.function := hvalue
  obtain rfl : computed = m.key.isComputed := hcomputed
  simp only [MethodDefinition.erase, MethodDefinition.map, hkind, hkey', hvalue', definition]

/-- A member of a class is read as it is written. -/
theorem definition_consumes (h : m.Reads n) (static : Bool) :
    Consumes (methodDefinition (level n)) (modifier static "static" ++ m.tokens) rest
      (·.erase = m.definition static) := by
  have hopens := m.keyTokens_opens
  obtain ⟨x, v, hv, hx⟩ := m.keyTokens_cons
  refine .peek fun start => ?_
  have hrest : Consumes _ m.keyTokens rest _ := definitionRest_consumes h start.span static
  cases hform : m.form with
  | method async generator =>
    rw [hform] at hrest
    rw [tokens_method hform]
    refine Consumes.acceptModifier (by decide) (opens_method (by decide)) ?_
    refine Consumes.acceptModifier (by decide) (hopens "async").star ?_
    rw [hv]
    refine Consumes.acceptStar hx ?_
    rw [← hv]
    by_cases hplain : async || generator
    · simp only [hplain]
      exact hrest
    · simp only [hplain]
      exact Consumes.accessor_none (hopens "get") (hopens "set") hrest
  | accessor getter =>
    rw [hform] at hrest
    rw [tokens_accessor hform]
    refine Consumes.acceptModifier (by decide) (opens_accessor (by decide) (by decide)) ?_
    refine Consumes.acceptModifier (b := false) (by decide)
      (opens_accessor (by decide) (by decide)) ?_
    refine Consumes.acceptStar (b := false) ?_ ?_
    · cases getter <;> decide
    · exact Consumes.accessor_some getter hopens hrest

/-! ### Members of objects -/

/-- What follows the modifiers of a member of an object. -/
def propertyRest (d : Deeper) (start : Span) (kind : PropertyKind) (async generator : Bool) :
    ParseM (Property Span) := do
  let first ← peek
  let (key, computed) ← propertyKey d
  if kind ≠ .init || async || generator || (← isMarkNext "(") then
    let value ← methodFunction d async generator
    return ⟨key, .function value, kind, computed, false, kind = .init, ← spanFrom start⟩
  else if ← acceptMark ":" then
    let value ← d.assignment
    return ⟨key, value, kind, computed, false, false, ← spanFrom start⟩
  else
    match key with
    | .ident id =>
      if isReference first then
        return ⟨key, .ident id, kind, false, true, false, ← spanFrom start⟩
      else fail (.missingMark .propertyColon)
    | _ => fail (.missingMark .propertyColon)

theorem isMethod_eq : m.form.isMethod = decide (m.property.kind = .init) := by
  unfold property MethodForm.isMethod
  cases m.form with
  | method async generator => rfl
  | accessor getter => cases getter <;> rfl

theorem propertyRest_consumes (h : m.Reads n) (start : Span) :
    Consumes (propertyRest (level n) start m.property.kind m.form.isAsync m.form.isGenerator)
      m.keyTokens rest (·.erase = m.property) := by
  refine .peek fun first => (m.key.takes h.key).bind_consumes (by decide) ?_
  rintro ⟨key, computed⟩ ⟨hkey, hcomputed⟩
  refine .isMarkNext (b := true) rfl ?_
  rw [Bool.or_true, if_pos rfl]
  refine .bind_nil (function_consumes h) fun value hvalue => .spanFrom fun span => .pure ?_
  have hkey' : key.map (fun _ => ()) = m.key.toKey := hkey
  have hvalue' : value.map (fun _ => ()) = m.function := hvalue
  obtain rfl : computed = m.key.isComputed := hcomputed
  simp only [Property.erase, Property.map, Expr.map, hkey', hvalue', ← isMethod_eq]
  rfl

/-- A member of an object is read as it is written. -/
theorem property_consumes (h : m.Reads n) :
    Consumes (Parse.property (level n)) m.tokens rest (·.erase = m.property) := by
  have hopens := m.keyTokens_opens
  obtain ⟨x, v, hv, hx⟩ := m.keyTokens_cons
  refine .peek fun start => ?_
  have hrest : Consumes _ m.keyTokens rest _ := propertyRest_consumes h start.span
  cases hform : m.form with
  | method async generator =>
    have hkind : m.property.kind = .init := by rw [property, hform]
    rw [hkind, hform] at hrest
    rw [tokens_method hform]
    refine Consumes.accessor_none (opens_method (by decide)) (opens_method (by decide)) ?_
    refine Consumes.acceptModifier (by decide) (hopens "async").star ?_
    rw [hv]
    refine Consumes.acceptStar hx ?_
    rw [← hv]
    exact hrest
  | accessor getter =>
    have hkind : m.property.kind = if getter then .get else .set := by
      rw [property, hform]
      cases getter <;> rfl
    rw [hkind, hform] at hrest
    rw [tokens_accessor hform]
    refine Consumes.accessor_some getter hopens ?_
    cases getter <;> exact hrest

end Method

/-! ### Keys with values -/

namespace MemberKey

/-- The key with a value behind a colon, as a member of an object. -/
def withValue (key : MemberKey) (value : Expr Unit) : Property Unit :=
  ⟨key.toKey, value, .init, key.isComputed, false, false, ()⟩

section
variable {n : Nat} {key : MemberKey} (h : key.Reads n) {v rest : List Token} {e : Expr Unit}
  (hv : Once (level n).assignment v rest (·.erase = e))
include h hv

theorem valueRest_consumes (start : Span) :
    Consumes (Method.propertyRest (level n) start .init false false)
      (key.tokens ++ .mark ":" :: v) rest (·.erase = key.withValue e) := by
  have hfollows : placeless.Follows .inside .inside (fun _ _ => True) (placeless.Alike Expr.map)
      (level n).assignment (level n).assignment := (Alignment.level_deepens (.inl rfl)).assignment
  have hvalue : Consumes (level n).assignment v rest (·.erase = e) :=
    (Once.everywhere Expr.map hfollows hv).consumes
  refine .peek fun first => (key.takes h).bind_consumes (by decide) ?_
  rintro ⟨key', computed⟩ ⟨hkey, hcomputed⟩
  refine .isMarkNext (b := false) rfl (.accept_yes rfl ?_)
  refine .bind_nil hvalue fun a ha => .spanFrom fun span => .pure ?_
  have hkey' : key'.map (fun _ => ()) = key.toKey := hkey
  have ha' : a.map (fun _ => ()) = e := ha
  obtain rfl : computed = key.isComputed := hcomputed
  simp only [Property.erase, Property.map, hkey', ha', withValue]

/-- The value is read where it stands. -/
theorem property_consumes :
    Consumes (property (level n)) (key.tokens ++ .mark ":" :: v) rest
      (·.erase = key.withValue e) := by
  have hopens : ∀ word, Opens word (key.tokens ++ .mark ":" :: v) := key.opens (by decide)
  obtain ⟨x, w, hw, hx⟩ : ∃ x w, key.tokens ++ .mark ":" :: v = x :: w ∧ x.kind ≠ .operator := by
    obtain ⟨x, w, hw, -, hx, -⟩ := key.exists_cons
    exact ⟨x, _, by rw [hw]; rfl, hx⟩
  refine .peek fun start => ?_
  have hrest := valueRest_consumes h hv start.span
  rw [hw] at hopens hrest ⊢
  refine Consumes.accessor_none (hopens "get") (hopens "set") ?_
  refine Consumes.acceptModifier (b := false) (by decide) (hopens "async") ?_
  exact Consumes.acceptStar (b := false) hx hrest

end

end MemberKey

end JsSyntax
