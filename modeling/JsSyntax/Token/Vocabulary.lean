import JsSyntax.Token.Basic

/-! # The fixed words of the language

Reserved words, operators and punctuation marks, and the character classes that words and
numbers are made of.
-/

set_option autoImplicit false

namespace JsSyntax

/-! ## Words -/

def reservedWords : List String :=
  ["var", "let", "const", "function", "class", "import", "export",
   "if", "else", "for", "while", "do", "switch", "case", "default", "break", "continue",
   "return", "throw", "try", "catch", "finally",
   "true", "false", "null", "undefined", "NaN", "Infinity",
   "this", "super", "new", "typeof", "instanceof", "void", "delete",
   "in", "of", "with", "yield", "await", "async"]

def isReserved (word : String) : Bool := reservedWords.contains word

/-- The kind of a token that is a word: the words that are literals have kinds of their own. -/
def wordKind (word : String) : TokenKind :=
  if word = "true" ∨ word = "false" then .boolean
  else if word = "null" then .null
  else if isReserved word then .keyword
  else .identifier

/-- Reserved words that may stand where the value of a variable may. -/
def globalNames : List String := ["undefined", "NaN", "Infinity"]

/-- Keywords that begin a statement; recovery from an error stops in front of them. -/
def statementKeywords : List String :=
  ["function", "class", "var", "let", "const", "if", "for", "while", "return"]

/-! ## Marks -/

def operators : List String :=
  ["+", "-", "*", "/", "%", "**", "++", "--",
   "=", "+=", "-=", "*=", "/=", "%=", "**=",
   "==", "===", "!=", "!==", ">", "<", ">=", "<=",
   "!", "&&", "||", "??", "?.", "?",
   "&", "|", "^", "~", "<<", ">>", ">>>",
   "&=", "|=", "^=", "<<=", ">>=", ">>>=",
   "=>", "..."]

def punctuationMarks : List String := ["(", ")", "[", "]", "\x7b", "\x7d", ",", ";", ":", "."]

/-- The kind of a token that is an operator or a punctuation mark. -/
def markKind? (lexeme : String) : Option TokenKind :=
  if operators.contains lexeme then some .operator
  else if punctuationMarks.contains lexeme then some .punctuation
  else none

/-- No operator or punctuation mark has more characters. -/
def longestMark : Nat := 4

/-! ## Characters -/

def isWordStart (c : Char) : Bool := c.isAlpha || c == '_'

def isWordPart (c : Char) : Bool := c.isAlphanum || c == '_'

def isExponentMark (c : Char) : Bool := c == 'e' || c == 'E'

def isSign (c : Char) : Bool := c == '+' || c == '-'

end JsSyntax
