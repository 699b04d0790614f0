import JsSyntax.Ast.Dump
import JsSyntax.Ast.Json
import JsSyntax.Command.Options
import JsSyntax.Dump.Printer
import JsSyntax.Json.Printer
import JsSyntax.Parse.Program

/-! # Commands

What a command writes and how it ends, given the text of its source or the reason why the source
could not be read.
-/

set_option autoImplicit false

namespace JsSyntax

namespace Command

/-! ## Results -/

structure Result where
  code : Nat
  stdout : String
  stderr : String
deriving DecidableEq, Repr

/-- Why a source could not be read. -/
inductive ReadFailure where
  | notFound
  | notDirectory
  | isDirectory
  | denied
  | notUtf8
deriving DecidableEq, Repr

def ReadFailure.message : ReadFailure → String
  | .notFound => "No such file or directory (os error 2)"
  | .notDirectory => "Not a directory (os error 20)"
  | .isDirectory => "Is a directory (os error 21)"
  | .denied => "Permission denied (os error 13)"
  | .notUtf8 => "stream did not contain valid UTF-8"

/-- The file name that stands for standard input. -/
def standardInput : String := "-"

def versionText : String := "hedwig 0.1.0"

/-! ## Log output -/

/-- The least severe level that is shown. -/
def Options.level (o : Options) : Level :=
  if o.quiet then .error
  else match o.verbose with
    | 0 => .warn
    | 1 => .info
    | 2 => .debug
    | _ => .trace

/-- Errors and warnings are shown without their target. -/
def recordLine (r : LogRecord) : String :=
  match r.level with
  | .error | .warn => r.level.name ++ ": " ++ r.message ++ "\n"
  | .info | .debug | .trace => "[" ++ r.level.name ++ " " ++ r.target ++ "] " ++ r.message ++ "\n"

def logText (o : Options) (records : List LogRecord) : String :=
  String.join ((records.filter fun r => r.level.shownAt (some o.level)).map recordLine)

/-- The record that sums up a command. -/
def summary (file message : String) : LogRecord := ⟨.info, "hedwig", file ++ ": " ++ message⟩

/-! ## Output -/

/-- A value in the form that the options ask for, on lines of its own. -/
def render (o : Options) (json : Json) (dump : Dump) : String :=
  (match o.format, o.compact with
    | .json, true => json.compact
    | .json, false => json.pretty
    | .debug, true => dump.compact
    | .debug, false => dump.pretty) ++ "\n"

/-- Shows the tokens of a source. -/
def showTokens (file : String) (o : Options) (source : String) : Result :=
  let tokens := tokenize source
  let records := (tokenizeLog source).map Event.record
    ++ [summary file (toString tokens.length ++ " tokens")]
  ⟨0, render o (.ofList Token.toJson tokens) (.ofList Token.toDump tokens), logText o records⟩

/-- Shows the program of a source. -/
def showProgram (file : String) (o : Options) (source : String) : Result :=
  let program := parse source
  let records := (parseLog source).map Event.record
    ++ [summary file (toString program.body.length ++ " statements, "
      ++ toString program.errors.length ++ " errors")]
  let code := if o.strict && program.hasErrors then 1 else 0
  ⟨code, render o program.toJson program.toDump, logText o records⟩

def readFailed (file : String) (failure : ReadFailure) : Result :=
  let name := if file = standardInput then "stdin" else file
  ⟨1, "", "Error: Cannot read " ++ name ++ ": " ++ failure.message ++ "\n"⟩

/-- Carries out an invocation. `source` is the text of its source, which the version does not
need. -/
def Invocation.execute (source : Except ReadFailure String) : Invocation → Result
  | .version => ⟨0, versionText ++ "\n", ""⟩
  | .run task file o =>
    match source, task with
    | .error failure, _ => readFailed file failure
    | .ok source, .tokens => showTokens file o source
    | .ok source, .ast => showProgram file o source

/-- The source that an invocation reads, if it reads one. -/
def Invocation.source? : Invocation → Option String
  | .version => none
  | .run _ file _ => some file

end Command

end JsSyntax
