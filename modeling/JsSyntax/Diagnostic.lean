import JsSyntax.Token.Basic

/-! # Diagnostics

What can be wrong with a source, and how it is reported. A `Fault` is the cause, a `Diagnostic`
its wording together with the place it is reported at.
-/

set_option autoImplicit false

namespace JsSyntax

/-! ## Places in the grammar -/

/-- The places where one particular punctuation mark has to stand. -/
inductive Place where
  | variableEnd
  | parametersStart
  | parametersEnd
  | blockStart
  | blockEnd
  | classStart
  | classEnd
  | ifStart
  | ifEnd
  | forStart
  | forInitEnd
  | forTestEnd
  | forEnd
  | whileStart
  | whileEnd
  | returnEnd
  | statementEnd
  | conditionalColon
  | computedMemberEnd
  | argumentsEnd
  | groupEnd
  | arrayEnd
  | objectEnd
  | propertyColon
  | computedKeyEnd
deriving DecidableEq, Repr

/-- The mark that a place demands. -/
def Place.mark : Place → String
  | .variableEnd | .forInitEnd | .forTestEnd | .returnEnd | .statementEnd => ";"
  | .parametersStart | .ifStart | .forStart | .whileStart => "("
  | .parametersEnd | .ifEnd | .forEnd | .whileEnd | .argumentsEnd | .groupEnd => ")"
  | .blockStart | .classStart => "\x7b"
  | .blockEnd | .classEnd | .objectEnd => "\x7d"
  | .computedMemberEnd | .arrayEnd | .computedKeyEnd => "]"
  | .conditionalColon | .propertyColon => ":"

/-- Where a place lies, as messages say it. -/
def Place.context : Place → String
  | .variableEnd => "after variable declaration"
  | .parametersStart => "before parameters"
  | .parametersEnd => "after parameters"
  | .blockStart => "before block"
  | .blockEnd => "after block"
  | .classStart => "before class body"
  | .classEnd => "after class body"
  | .ifStart => "after 'if'"
  | .ifEnd => "after if condition"
  | .forStart => "after 'for'"
  | .forInitEnd => "after loop initializer"
  | .forTestEnd => "after loop condition"
  | .forEnd => "after for clauses"
  | .whileStart => "after 'while'"
  | .whileEnd => "after while condition"
  | .returnEnd => "after return value"
  | .statementEnd => "after expression"
  | .conditionalColon => "in conditional expression"
  | .computedMemberEnd => "after computed member"
  | .argumentsEnd => "after arguments"
  | .groupEnd => "after expression"
  | .arrayEnd => "after array elements"
  | .objectEnd => "after object properties"
  | .propertyColon => "after property key"
  | .computedKeyEnd => "after computed key"

/-- The places where a name has to stand. -/
inductive NamePlace where
  | variable
  | parameter
  | className
  | key
  | member
deriving DecidableEq, Repr

def NamePlace.description : NamePlace → String
  | .variable => "variable name"
  | .parameter => "parameter name"
  | .className => "class name"
  | .key => "property name"
  | .member => "property name after '.'"

/-! ## Faults -/

inductive Fault where
  | missingMark (place : Place)
  | missingName (place : NamePlace)
  | unexpectedToken (lexeme : String)
  | unexpectedEnd
  | invalidNumber
  | invalidUpdateTarget
  | invalidAssignmentTarget
  | nestingTooDeep
deriving DecidableEq, Repr

def Fault.message : Fault → String
  | .missingMark place => "Expected '" ++ place.mark ++ "' " ++ place.context
  | .missingName place => "Expected " ++ place.description
  | .unexpectedToken lexeme => "Unexpected token '" ++ lexeme ++ "'"
  | .unexpectedEnd => "Unexpected end of input"
  | .invalidNumber => "Invalid number literal"
  | .invalidUpdateTarget => "Invalid update target"
  | .invalidAssignmentTarget => "Invalid assignment target"
  | .nestingTooDeep => "Maximum nesting depth exceeded"

/-! ## Diagnostics -/

structure Location where
  line : Nat
  column : Nat
deriving DecidableEq, Repr

def Location.text (l : Location) : String :=
  "line " ++ toString l.line ++ ", column " ++ toString l.column

structure Diagnostic where
  message : String
  location : Location
deriving DecidableEq, Repr

namespace Diagnostic

/-- A message about what starts at `p`. -/
def atPosition (message : String) (p : Position) : Diagnostic := ⟨message, ⟨p.line, p.column⟩⟩

/-- A message about a token. -/
def atToken (message : String) (t : Token) : Diagnostic := atPosition message t.span.start

def text (d : Diagnostic) : String :=
  "ParseError: " ++ d.message ++ " at " ++ d.location.text

end Diagnostic

/-- The report of a fault in what starts at `p`. -/
def Fault.report (fault : Fault) (p : Position) : Diagnostic := .atPosition fault.message p

end JsSyntax
