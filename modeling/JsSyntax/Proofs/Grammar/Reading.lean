import JsSyntax.Ast.Basic
import JsSyntax.Token.Vocabulary

/-! # What the grammar sees

The grammar relates stretches of tokens to nodes. It sees the kind and the text of a token, and of
a node's annotation whether it covers a stretch. A `Reading` says what these are:

* `Reading.bare` : tokens are pairs of a kind and a text, and nodes carry no annotation.
* `Reading.spanned` : tokens and nodes carry spans, and the span of a node runs from the start of
  its first token to the end of its last.

Every derivation under the second reading gives one under the first (`Derives.translate`).
-/

set_option autoImplicit false

namespace JsSyntax

/-! ## Keys and members -/

/-- Is the key written in brackets? -/
def PropertyKey.isComputed {σ : Type} : PropertyKey σ → Bool
  | .computed _ => true
  | _ => false

/-- Is the member named by an expression in brackets? -/
def MemberProperty.isComputed {σ : Type} : MemberProperty σ → Bool
  | .expr _ => true
  | .ident _ => false

namespace Grammar

/-! ## Readings -/

/-- Tokens of type `τ` and annotations of type `σ`. -/
structure Reading (τ σ : Type) where
  kind : τ → TokenKind
  text : τ → String
  /-- Is this the annotation of a node that is written as these tokens? -/
  Covers : List τ → σ → Prop

/-- The reading that leaves out all layout. -/
def Reading.bare : Reading (TokenKind × String) Unit := ⟨Prod.fst, Prod.snd, fun _ _ => True⟩

/-- The reading of the parser. -/
def Reading.spanned : Reading Token Span where
  kind := Token.kind
  text := Token.value
  Covers u s := ∃ first last, u.head? = some first ∧ u.getLast? = some last ∧
    s = first.span.through last.span

namespace Reading

variable {τ σ : Type} (R : Reading τ σ)

/-! ## Terminals -/

def IsMark (t : τ) (mark : String) : Prop := R.kind t = .punctuation ∧ R.text t = mark

def IsOperator (t : τ) (symbol : String) : Prop := R.kind t = .operator ∧ R.text t = symbol

def IsKeyword (t : τ) (word : String) : Prop := R.kind t = .keyword ∧ R.text t = word

/-- A word that has a meaning in its place only. -/
def IsWord (t : τ) (word : String) : Prop :=
  (R.kind t = .identifier ∨ R.kind t = .keyword) ∧ R.text t = word

def IsIdentifier (t : τ) : Prop := R.kind t = .identifier

/-- The name of a member, which may be a reserved word. -/
def IsName (t : τ) : Prop :=
  R.kind t = .identifier ∨ R.kind t = .keyword ∨ R.kind t = .boolean ∨ R.kind t = .null

/-- The name of a variable, or a reserved word that stands for a value as one does. -/
def IsReference (t : τ) : Prop :=
  R.IsIdentifier t ∨ R.kind t = .keyword ∧ R.text t ∈ globalNames

/-- The token as a name. -/
def ident (t : τ) (s : σ) : Ident σ := ⟨R.text t, s⟩

end Reading

/-- A token that is there if and only if a flag is set. -/
inductive Flag {τ : Type} (P : τ → Prop) : Bool → List τ → Prop where
  | on {t : τ} : P t → Flag P true [t]
  | off : Flag P false []

theorem Flag.eq_nil {τ : Type} {P : τ → Prop} {u : List τ} (h : Flag P false u) : u = [] := by
  cases h
  rfl

/-! ## Names -/

section
variable {τ σ : Type} (R : Reading τ σ)

/-- Names with commas between them. -/
inductive Names : List τ → List (Ident σ) → Prop where
  | one {t : τ} {s : σ} : R.IsIdentifier t → R.Covers [t] s → Names [t] [R.ident t s]
  | more {t comma : τ} {s : σ} {v : List τ} {ids : List (Ident σ)} :
      R.IsIdentifier t → R.Covers [t] s → R.IsMark comma "," → Names v ids →
      Names ([t] ++ [comma] ++ v) (R.ident t s :: ids)

/-- Names in parentheses. -/
inductive Parameters : List τ → List (Ident σ) → Prop where
  | none {start stop : τ} : R.IsMark start "(" → R.IsMark stop ")" → Parameters ([start] ++ [stop]) []
  | some {start stop : τ} {u : List τ} {ids : List (Ident σ)} :
      R.IsMark start "(" → Names R u ids → R.IsMark stop ")" →
      Parameters ([start] ++ u ++ [stop]) ids

/-- The name of a function, which may be left out. -/
inductive FunctionName : List τ → Option (Ident σ) → Prop where
  | none : FunctionName [] none
  | some {t : τ} {s : σ} : R.IsIdentifier t → R.Covers [t] s → FunctionName [t] (some (R.ident t s))

end

end Grammar

end JsSyntax
