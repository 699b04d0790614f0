import JsSyntax.Ast.Basic
import JsSyntax.Log

/-! # Parsing steps

A parser reads the tokens ahead of it one by one and looks at most two tokens ahead. It fails with
a diagnostic, and the state at the failure is kept: what it had read stays read, and what it had
logged stays logged.
-/

set_option autoImplicit false

namespace JsSyntax

namespace Parse

structure State where
  /-- The token read last. -/
  last : Option Token
  /-- The tokens ahead, comments and the closing token left out. -/
  rest : List Token
  /-- Where the source ends. -/
  stop : Position
  /-- What has happened so far, the latest first. -/
  events : List Event
deriving DecidableEq, Repr

namespace State

/-- The closing token, which shows when nothing is ahead. -/
def closing (s : State) : Token := .eof s.stop

/-- The next token. -/
def current (s : State) : Token := s.rest.headD s.closing

/-- The token after the next one. -/
def second (s : State) : Token := (s.rest.drop 1).headD s.closing

def atEnd (s : State) : Bool := s.rest.isEmpty

/-- The tokens ahead and the closing one. -/
def ahead (s : State) : List Token := s.closing :: s.rest

/-- The span from the start of `start` to the end of the token read last. -/
def spanFrom (s : State) (start : Span) : Span :=
  match s.last with
  | some t => start.through t.span
  | none => start

end State

end Parse

abbrev ParseM := EStateM Diagnostic Parse.State

namespace Parse

variable {α : Type}

/-! ## Looking -/

def peek : ParseM Token := do return (← get).current

def peekSecond : ParseM Token := do return (← get).second

def atEnd : ParseM Bool := do return (← get).atEnd

def isNext (kind : TokenKind) (value : String) : ParseM Bool := do return (← peek).is kind value

def isMarkNext (mark : String) : ParseM Bool := isNext .punctuation mark

/-- The choice whose symbol is the next token, if that is of the given kind. -/
def nextOneOf (kind : TokenKind) (symbol : α → String) (choices : List α) :
    ParseM (Option α) := do
  let t ← peek
  return if t.kind = kind then choices.find? fun choice => symbol choice == t.value else none

/-- The span from the start of `start` to the end of the token read last. -/
def spanFrom (start : Span) : ParseM Span := do return (← get).spanFrom start

/-! ## Reading -/

/-- Reads the next token; at the end it stays put. -/
def advance : ParseM Token := fun s =>
  match s.rest with
  | [] => .ok s.closing s
  | t :: rest => .ok t { s with last := some t, rest := rest }

/-- Reads the next token if it is the given one, and says whether it was. -/
def accept (kind : TokenKind) (value : String) : ParseM Bool := do
  if ← isNext kind value then
    discard advance
    return true
  else
    return false

def acceptMark (mark : String) : ParseM Bool := accept .punctuation mark

def acceptOperator (symbol : String) : ParseM Bool := accept .operator symbol

def acceptKeyword (word : String) : ParseM Bool := accept .keyword word

/-- Reads the next token if it is the symbol of one of the choices. -/
def acceptOneOf (kind : TokenKind) (symbol : α → String) (choices : List α) :
    ParseM (Option α) := do
  match ← nextOneOf kind symbol choices with
  | some choice =>
    discard advance
    return some choice
  | none => return none

/-- Reads a word that has a meaning in its place only, and may be a keyword or not. -/
def acceptWord (word : String) : ParseM Bool := do
  let t ← peek
  if (t.kind = .identifier ∨ t.kind = .keyword) ∧ t.value = word then
    discard advance
    return true
  else
    return false

/-! ## Failing and logging -/

/-- Fails with a fault in the next token. -/
def fail (fault : Fault) : ParseM α := do throw (fault.report (← peek).span.start)

/-- Fails because nothing that may stand here starts with the next token. -/
def unexpected : ParseM α := do
  let t ← peek
  if t.kind = .eof then fail .unexpectedEnd else fail (.unexpectedToken t.value)

/-- Reads the mark that has to stand here. -/
def require (place : Place) : ParseM Unit := do
  unless ← acceptMark place.mark do fail (.missingMark place)

def emit (e : Event) : ParseM Unit := modify fun s => { s with events := e :: s.events }

/-! ## Names -/

/-- Reads a name that is no reserved word. -/
def identifier (place : NamePlace) : ParseM (Ident Span) := do
  if (← peek).kind = .identifier then
    let t ← advance
    return ⟨t.value, t.span⟩
  else
    fail (.missingName place)

/-- Can the token be the name of a member? Reserved words can. -/
def isName (t : Token) : Bool :=
  match t.kind with
  | .identifier | .keyword | .boolean | .null => true
  | _ => false

/-- Reads the name of a member after a point. -/
def memberName : ParseM (Ident Span) := do
  if isName (← peek) then
    let t ← advance
    return ⟨t.value, t.span⟩
  else
    fail (.missingName .member)

end Parse

end JsSyntax
