import JsSyntax.Parse.Statement
import JsSyntax.Token.Tokenize

/-! # Programs

A source is parsed statement by statement. A statement that cannot be parsed becomes an error, the
tokens up to the next place where a statement may start are skipped, and parsing goes on there, so
that every source gives a program.

* `parse` : the program of a source.
* `parseLog`, `tokenizeLog` : what happens while a source is parsed, or only tokenized.
* `Parser` : a parser that is used for one source after another.
-/

set_option autoImplicit false

namespace JsSyntax

namespace Parse

/-! ## Recovery -/

/-- May a statement start at the token, so that recovery stops in front of it? -/
def startsStatement (t : Token) : Bool :=
  t.kind == .keyword && statementKeywords.contains t.value

/-- The tokens skipped behind `last`: up to a place behind a semicolon, in front of a statement
keyword, or at the end. -/
def skipped (last : Token) : List Token → List Token
  | [] => []
  | t :: rest =>
    if last.isPunctuation ";" || startsStatement t then [] else t :: skipped t rest

/-- The state in which parsing goes on after a failure. At least one token is skipped, unless none
is ahead. -/
def recover (s : State) : State :=
  match s.rest with
  | [] => { s with events := .recovered 0 :: s.events }
  | t :: rest =>
    let gone := t :: skipped t rest
    { s with
      last := gone.getLast?
      rest := s.rest.drop gone.length
      events := .recovered gone.length :: s.events }

/-! ## Statements one after another -/

/-- What comes of a stretch of tokens: a statement or an error. -/
abbrev Outcome := Except Diagnostic (Statement Span)

/-- Parses one statement at the top level, or recovers from a failure to. -/
def nextOutcome (d : Deeper) (s : State) : Outcome × State :=
  match d.statement s with
  | .ok statement s => (.ok statement, s)
  | .error e s => (.error e, recover { s with events := .failed e :: s.events })

/-- The outcomes of at most `fuel` stretches. -/
def outcomes (d : Deeper) : Nat → State → List Outcome × State
  | 0, s => ([], s)
  | fuel + 1, s =>
    if s.atEnd then ([], s)
    else
      let (outcome, s) := nextOutcome d s
      let (later, s) := outcomes d fuel s
      (outcome :: later, s)

def statementOf? : Outcome → Option (Statement Span)
  | .ok statement => some statement
  | .error _ => none

def errorOf? : Outcome → Option Diagnostic
  | .ok _ => none
  | .error e => some e

/-! ## Whole sources -/

/-- The state before the first token of a source. -/
def State.ofTokens (tokens : List Token) : State where
  last := none
  rest := tokens.dropLast
  stop := (tokens.getLast?.getD default).span.start
  events := []

/-- What is logged about tokenizing a source, in order. -/
def tokenizeEvents (source : String) (tokens : List Token) : List Event :=
  [.tokenizing source.utf8ByteSize, .tokenized tokens.length]

/-- The program of a source under a limit on nesting, and the state after it. -/
def run (limit : Nat) (source : String) : Program × State :=
  let all := tokenize source
  let comments := all.filter (·.kind = .comment)
  let tokens := all.filter (·.kind ≠ .comment)
  let start := State.ofTokens tokens
  let start := { start with
    events := .parsing tokens.length :: (tokenizeEvents source all).reverse }
  let (found, s) := outcomes (level limit) start.rest.length start
  let body := found.filterMap statementOf?
  let errors := found.filterMap errorOf?
  let s := { s with events := .parsed body.length errors.length :: s.events }
  (⟨body, comments, errors, s.spanFrom start.current.span⟩, s)

end Parse

/-- Statements and expressions may not nest more deeply than this. -/
def nestingLimit : Nat := 64

/-- The program of a source under a limit on nesting. -/
def parseWith (limit : Nat) (source : String) : Program := (Parse.run limit source).1

/-- The program of a source. -/
def parse (source : String) : Program := parseWith nestingLimit source

/-- What happens while a source is parsed, in order. -/
def parseLog (source : String) : List Event := (Parse.run nestingLimit source).2.events.reverse

/-- What happens while a source is tokenized, in order. -/
def tokenizeLog (source : String) : List Event := Parse.tokenizeEvents source (tokenize source)

/-! ## Reuse -/

/-- A parser, as its last use left it. -/
structure Parser where
  state : Parse.State

namespace Parser

/-- A parser that has not been used; nothing is ahead of it. -/
def fresh : Parser := ⟨.ofTokens []⟩

/-- Parses a source from its start, whatever was parsed before. -/
def parse (_ : Parser) (source : String) : Program × Parser :=
  let (program, s) := Parse.run nestingLimit source
  (program, ⟨s⟩)

/-- Parses an expression from where the last use ended. -/
def parseExpression (p : Parser) : Except Diagnostic (Expr Span) × Parser :=
  match (Parse.level nestingLimit).assignment p.state with
  | .ok e s => (.ok e, ⟨s⟩)
  | .error e s => (.error e, ⟨s⟩)

end Parser

end JsSyntax
