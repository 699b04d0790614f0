import JsSyntax.Source.Span

/-! # Tokens

A token is a lexeme with its kind and the span it covers.
-/

set_option autoImplicit false

namespace JsSyntax

inductive TokenKind where
  | keyword
  | identifier
  | number
  | string
  | templateString
  | boolean
  | null
  | operator
  | punctuation
  | comment
  | eof
  | unknown
deriving DecidableEq, Repr

/-- The name by which a kind is written in output and in log messages. -/
def TokenKind.name : TokenKind → String
  | .keyword => "KEYWORD"
  | .identifier => "IDENTIFIER"
  | .number => "NUMBER"
  | .string => "STRING"
  | .templateString => "TEMPLATE_STRING"
  | .boolean => "BOOLEAN"
  | .null => "NULL"
  | .operator => "OPERATOR"
  | .punctuation => "PUNCTUATION"
  | .comment => "COMMENT"
  | .eof => "EOF"
  | .unknown => "UNKNOWN"

theorem TokenKind.name_inj {a b : TokenKind} (h : a.name = b.name) : a = b := by
  cases a <;> cases b <;> first | rfl | simp [TokenKind.name] at h

structure Token where
  kind : TokenKind
  value : String
  span : Span
deriving DecidableEq, Repr

namespace Token

/-- The token that closes every token list; it stands for no text. -/
def eof (p : Position) : Token := ⟨.eof, "", .point p⟩

instance : Inhabited Token := ⟨eof .first⟩

def line (t : Token) : Nat := t.span.start.line

def column (t : Token) : Nat := t.span.start.column

def is (t : Token) (kind : TokenKind) (value : String) : Bool :=
  t.kind == kind && t.value == value

def isKeyword (t : Token) (word : String) : Bool := t.is .keyword word

def isOperator (t : Token) (lexeme : String) : Bool := t.is .operator lexeme

def isPunctuation (t : Token) (lexeme : String) : Bool := t.is .punctuation lexeme

theorem is_iff {t : Token} {kind : TokenKind} {value : String} :
    t.is kind value ↔ t.kind = kind ∧ t.value = value := by
  simp [is]

end Token

end JsSyntax
