import JsSyntax.Diagnostic

/-! # Log records

Reading and parsing leave a trail of events. An event is shown as a record: a severity level, the
part of the program it comes from, and a message.
-/

set_option autoImplicit false

namespace JsSyntax

/-- Severity, from the most to the least severe. -/
inductive Level where
  | error
  | warn
  | info
  | debug
  | trace
deriving DecidableEq, Repr

namespace Level

def name : Level → String
  | .error => "ERROR"
  | .warn => "WARN"
  | .info => "INFO"
  | .debug => "DEBUG"
  | .trace => "TRACE"

/-- The number of levels that are more severe. -/
def rank : Level → Nat
  | .error => 0
  | .warn => 1
  | .info => 2
  | .debug => 3
  | .trace => 4

/-- Is the level as severe as `limit`? Without a limit nothing is shown. -/
def shownAt (level : Level) : Option Level → Bool
  | none => false
  | some limit => level.rank ≤ limit.rank

end Level

structure LogRecord where
  level : Level
  target : String
  message : String
deriving DecidableEq, Repr

/-- What happens on the way from a source to a program. -/
inductive Event where
  | tokenizing (bytes : Nat)
  | tokenized (tokens : Nat)
  | parsing (tokens : Nat)
  | statement (first : Token)
  | failed (diagnostic : Diagnostic)
  | recovered (skipped : Nat)
  | parsed (statements errors : Nat)
deriving DecidableEq, Repr

namespace Event

def level : Event → Level
  | .tokenizing _ | .tokenized _ | .parsing _ | .parsed .. => .debug
  | .statement _ => .trace
  | .failed _ => .error
  | .recovered _ => .warn

def target : Event → String
  | .tokenizing _ | .tokenized _ => "hedwig::lexer"
  | _ => "hedwig::parser"

def message : Event → String
  | .tokenizing n => "tokenizing " ++ toString n ++ " bytes"
  | .tokenized n => "produced " ++ toString n ++ " tokens"
  | .parsing n => "parsing " ++ toString n ++ " tokens"
  | .statement t =>
    "statement at " ++ toString t.line ++ ":" ++ toString t.column ++ " starting with "
      ++ t.kind.name ++ " '" ++ t.value ++ "'"
  | .failed d => d.text
  | .recovered n => "recovered after skipping " ++ toString n ++ " token(s)"
  | .parsed n m => "parsed " ++ toString n ++ " statements with " ++ toString m ++ " errors"

def record (e : Event) : LogRecord := ⟨e.level, e.target, e.message⟩

end Event

end JsSyntax
