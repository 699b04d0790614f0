import JsSyntax.Ast.Map
import JsSyntax.Proofs.Token.Rules

/-! # Expressions as they are written

A `Tree` is an expression made of operators, calls and accesses over names and literals. `tokens`
writes it down with as few parentheses as the precedence of the operators allows, `source` puts
blanks between the tokens, and `nesting` counts how often what is written nests.
-/

set_option autoImplicit false

namespace JsSyntax

/-! ## Levels of precedence -/

/-- The levels of expressions, from the loosest to the tightest. -/
inductive Precedence where
  | assignment
  | conditional
  | or
  | and
  | equality
  | comparison
  | additive
  | multiplicative
  | unary
  | update
  | chain
  | primary
deriving DecidableEq

namespace Precedence

def rank (p : Precedence) : Nat := p.ctorIdx

/-- The next tighter level; the tightest one has none. -/
def tighter : Precedence → Precedence
  | .assignment => .conditional
  | .conditional => .or
  | .or => .and
  | .and => .equality
  | .equality => .comparison
  | .comparison => .additive
  | .additive => .multiplicative
  | .multiplicative => .unary
  | .unary => .update
  | .update => .chain
  | .chain => .primary
  | .primary => .primary

end Precedence

def BinaryOp.precedence : BinaryOp → Precedence
  | .eq | .notEq | .strictEq | .strictNotEq => .equality
  | .lt | .ltEq | .gt | .gtEq => .comparison
  | .add | .sub => .additive
  | .mul | .div | .mod => .multiplicative

def LogicalOp.precedence : LogicalOp → Precedence
  | .and => .and
  | .or => .or

/-! ## Trees -/

/-- A word, reserved or not, as it may stand behind a point. -/
structure MemberName where
  text : String
  starts : text.toList.head?.any isWordStart
  parts : Word text.toList

/-- A word that is not reserved. -/
structure Name extends MemberName where
  free : ¬ isReserved text

/-- A string between quotes. -/
structure QuotedText where
  quote : Char
  body : List Char
  isQuote : quote = '\x22' ∨ quote = '\x27'
  closed : QuoteBody quote body

def QuotedText.lexeme (q : QuotedText) : String := String.ofList (q.quote :: (q.body ++ [q.quote]))

mutual

inductive Tree where
  | target (t : TargetTree)
  | this
  | boolean (value : Bool)
  | null
  | string (q : QuotedText)
  | array (slots : List (Option Tree))
  | unary (op : UnaryOp) (argument : Tree)
  | await (argument : Tree)
  | update (op : UpdateOp) (before : Bool) (argument : TargetTree)
  | binary (op : BinaryOp) (left right : Tree)
  | logical (op : LogicalOp) (left right : Tree)
  | conditional (test consequent alternate : Tree)
  | assign (op : AssignmentOp) (left : TargetTree) (right : Tree)
  | call (callee : Tree) (arguments : List Tree)
  | new (callee : Tree) (arguments : List Tree)

/-- What can be assigned to and counted up and down. -/
inductive TargetTree where
  | name (name : Name)
  | field (object : Tree) (name : MemberName)
  | element (object index : Tree)

end

def booleanLexeme (value : Bool) : String := if value then "true" else "false"

mutual

/-- The tree as the parser builds it, without spans. -/
def Tree.toExpr : Tree → Expr Unit
  | .target t => t.toExpr
  | .this => .this ()
  | .boolean value => .literal ⟨.boolean value, booleanLexeme value, ()⟩
  | .null => .literal ⟨.null, "null", ()⟩
  | .string q => .literal ⟨.string (String.ofList q.body), q.lexeme, ()⟩
  | .array slots => .array (Tree.slotsToExprs slots) ()
  | .unary op argument => .unary op argument.toExpr ()
  | .await argument => .await argument.toExpr ()
  | .update op before argument => .update op before argument.toExpr ()
  | .binary op left right => .binary op left.toExpr right.toExpr ()
  | .logical op left right => .logical op left.toExpr right.toExpr ()
  | .conditional test consequent alternate =>
    .conditional test.toExpr consequent.toExpr alternate.toExpr ()
  | .assign op left right => .assign op left.toPattern right.toExpr ()
  | .call callee arguments => .call callee.toExpr (Tree.allToExprs arguments) ()
  | .new callee arguments => .new callee.toExpr (Tree.allToExprs arguments) ()

def Tree.allToExprs : List Tree → List (Expr Unit)
  | [] => []
  | e :: es => e.toExpr :: Tree.allToExprs es

def Tree.slotToExpr : Option Tree → Option (Expr Unit)
  | none => none
  | some e => some e.toExpr

def Tree.slotsToExprs : List (Option Tree) → List (Option (Expr Unit))
  | [] => []
  | slot :: slots => Tree.slotToExpr slot :: Tree.slotsToExprs slots

def TargetTree.toExpr : TargetTree → Expr Unit
  | .name name => .ident ⟨name.text, ()⟩
  | .field object name => .member object.toExpr (.ident ⟨name.text, ()⟩) false ()
  | .element object index => .member object.toExpr (.expr index.toExpr) true ()

def TargetTree.toPattern : TargetTree → Pattern Unit
  | .name name => .ident ⟨name.text, ()⟩
  | .field object name => .member object.toExpr (.ident ⟨name.text, ()⟩) false ()
  | .element object index => .member object.toExpr (.expr index.toExpr) true ()

end

/-! ## Positions -/

def TargetTree.precedence : TargetTree → Precedence
  | .name _ => .primary
  | .field .. | .element .. => .chain

def Tree.precedence : Tree → Precedence
  | .target t => t.precedence
  | .this | .boolean _ | .null | .string _ | .array _ | .new .. => .primary
  | .unary .. | .await _ => .unary
  | .update .. => .update
  | .binary op _ _ => op.precedence
  | .logical op _ _ => op.precedence
  | .conditional .. => .conditional
  | .assign .. => .assignment
  | .call .. => .chain

mutual

/-- Is the tree a primary, or made of accesses over a primary? -/
def Tree.isCallee : Tree → Bool
  | .target t => t.isCallee
  | .this | .boolean _ | .null | .string _ | .array _ | .new .. => true
  | .unary .. | .await _ | .update .. | .binary .. | .logical .. | .conditional .. | .assign ..
  | .call .. => false

def TargetTree.isCallee : TargetTree → Bool
  | .name _ => true
  | .field object _ => object.isCallee
  | .element object _ => object.isCallee

end

/-! ## Writing -/

/-- A token without a place. -/
def Token.word (kind : TokenKind) (text : String) : Token := ⟨kind, text, default⟩

def Token.mark (text : String) : Token := .word .punctuation text

def Token.operator (text : String) : Token := .word .operator text

def Token.keyword (text : String) : Token := .word .keyword text

/-- A unary operator as a token. -/
def UnaryOp.token (op : UnaryOp) : Token :=
  .word (if op ∈ UnaryOp.marks then .operator else .keyword) op.symbol

def parenthesized (u : List Token) : List Token := .mark "(" :: (u ++ [.mark ")"])

/-- What is written as `u`, with parentheses if its own level is too loose for the position. -/
def placedAt (position own : Precedence) (u : List Token) : List Token :=
  if position.rank ≤ own.rank then u else parenthesized u

mutual

def Tree.tokens : Tree → List Token
  | .target t => t.tokens
  | .this => [.keyword "this"]
  | .boolean value => [.word .boolean (booleanLexeme value)]
  | .null => [.word .null "null"]
  | .string q => [.word .string q.lexeme]
  | .array slots => .mark "[" :: (Tree.slotsTokens slots ++ [.mark "]"])
  | .unary op argument => op.token :: placedAt .unary argument.precedence argument.tokens
  | .await argument => .keyword "await" :: placedAt .unary argument.precedence argument.tokens
  | .update op before argument =>
    if before then .operator op.symbol :: argument.tokens
    else argument.tokens ++ [.operator op.symbol]
  | .binary op left right =>
    placedAt op.precedence left.precedence left.tokens ++ .operator op.symbol ::
      placedAt op.precedence.tighter right.precedence right.tokens
  | .logical op left right =>
    placedAt op.precedence left.precedence left.tokens ++ .operator op.symbol ::
      placedAt op.precedence.tighter right.precedence right.tokens
  | .conditional test consequent alternate =>
    placedAt .or test.precedence test.tokens ++ .operator "?" ::
      (placedAt .assignment consequent.precedence consequent.tokens ++ .mark ":" ::
        placedAt .assignment alternate.precedence alternate.tokens)
  | .assign op left right =>
    left.tokens ++ .operator op.symbol ::
      placedAt .assignment right.precedence right.tokens
  | .call callee arguments =>
    placedAt .chain callee.precedence callee.tokens ++ .mark "(" ::
      (Tree.listTokens arguments ++ [.mark ")"])
  | .new callee arguments =>
    .keyword "new" :: ((if callee.isCallee then callee.tokens else parenthesized callee.tokens) ++
      .mark "(" :: (Tree.listTokens arguments ++ [.mark ")"]))

/-- Arguments, with commas between them. -/
def Tree.listTokens : List Tree → List Token
  | [] => []
  | [e] => placedAt .assignment e.precedence e.tokens
  | e :: es => placedAt .assignment e.precedence e.tokens ++ .mark "," :: Tree.listTokens es

/-- The slots of an array, with a comma behind each. -/
def Tree.slotsTokens : List (Option Tree) → List Token
  | [] => []
  | none :: slots => .mark "," :: Tree.slotsTokens slots
  | some e :: slots =>
    placedAt .assignment e.precedence e.tokens ++ .mark "," :: Tree.slotsTokens slots

def TargetTree.tokens : TargetTree → List Token
  | .name name => [.word .identifier name.text]
  | .field object name =>
    placedAt .chain object.precedence object.tokens ++
      [.mark ".", .word (wordKind name.text) name.text]
  | .element object index =>
    placedAt .chain object.precedence object.tokens ++ .mark "[" ::
      (placedAt .assignment index.precedence index.tokens ++ [.mark "]"])

end

/-- The texts of the tokens, with a blank between any two. -/
def spaced (ts : List Token) : String := " ".intercalate (ts.map (·.value))

/-- The tree as a statement. -/
def Tree.source (e : Tree) : String := spaced (e.tokens ++ [.mark ";"])

/-! ## Nesting -/

/-- Parentheses nest, too. -/
def nestingAt (position own : Precedence) (n : Nat) : Nat :=
  if position.rank ≤ own.rank then n else n + 1

mutual

/-- How often operands of prefix operators, `new` and expressions of the loosest level nest. -/
def Tree.nesting : Tree → Nat
  | .target t => t.nesting
  | .this | .boolean _ | .null | .string _ => 0
  | .array slots => Tree.slotsNesting slots
  | .unary _ argument => nestingAt .unary argument.precedence argument.nesting + 1
  | .await argument => nestingAt .unary argument.precedence argument.nesting + 1
  | .update _ before argument => if before then argument.nesting + 1 else argument.nesting
  | .binary op left right =>
    max (nestingAt op.precedence left.precedence left.nesting)
      (nestingAt op.precedence.tighter right.precedence right.nesting)
  | .logical op left right =>
    max (nestingAt op.precedence left.precedence left.nesting)
      (nestingAt op.precedence.tighter right.precedence right.nesting)
  | .conditional test consequent alternate =>
    max (nestingAt .or test.precedence test.nesting)
      (max consequent.nesting alternate.nesting + 1)
  | .assign _ left right => max left.nesting (right.nesting + 1)
  | .call callee arguments =>
    max (nestingAt .chain callee.precedence callee.nesting) (Tree.listNesting arguments)
  | .new callee arguments =>
    max (if callee.isCallee then callee.nesting else callee.nesting + 1)
      (Tree.listNesting arguments) + 1

def Tree.listNesting : List Tree → Nat
  | [] => 0
  | e :: es => max (e.nesting + 1) (Tree.listNesting es)

def Tree.slotsNesting : List (Option Tree) → Nat
  | [] => 0
  | none :: slots => Tree.slotsNesting slots
  | some e :: slots => max (e.nesting + 1) (Tree.slotsNesting slots)

def TargetTree.nesting : TargetTree → Nat
  | .name _ => 0
  | .field object _ => nestingAt .chain object.precedence object.nesting
  | .element object index =>
    max (nestingAt .chain object.precedence object.nesting) (index.nesting + 1)

end

end JsSyntax
