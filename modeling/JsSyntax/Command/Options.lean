/-! # Command line arguments

A command line names a task and a source, with options before and behind the task. An option
behind the task wins over the same option before it; the same option twice on one side is refused,
except that asking for more messages twice is asking for still more.
-/

set_option autoImplicit false

namespace JsSyntax

namespace Command

/-! ## What can be asked for -/

inductive Format where
  | json
  | debug
deriving DecidableEq, Repr

def Format.ofName? : String → Option Format
  | "json" => some .json
  | "debug" => some .debug
  | _ => none

inductive Task where
  /-- Show the tokens of a source. -/
  | tokens
  /-- Show the program of a source. -/
  | ast
deriving DecidableEq, Repr

def Task.ofName? : String → Option Task
  | "tokens" => some .tokens
  | "ast" => some .ast
  | _ => none

structure Options where
  format : Format
  compact : Bool
  /-- How often more messages were asked for. -/
  verbose : Nat
  quiet : Bool
  /-- Do errors in the source fail the command? -/
  strict : Bool
deriving DecidableEq, Repr

/-- What a command line asks for. -/
inductive Invocation where
  | version
  | run (task : Task) (file : String) (options : Options)
deriving DecidableEq, Repr

/-- What can be wrong with a command line. -/
inductive UsageError where
  | missingTask
  | unknownTask (word : String)
  | missingFile
  | emptyFile
  | extraFile (word : String)
  | unknownOption (word : String)
  | missingValue (option : String)
  | unexpectedValue (option : String)
  | badValue (option value : String)
  | repeated (option : String)
deriving DecidableEq, Repr

def UsageError.message : UsageError → String
  | .missingTask => "a task is required: tokens or ast"
  | .unknownTask word => "unknown task '" ++ word ++ "'"
  | .missingFile => "a source file is required, or - for standard input"
  | .emptyFile => "the name of the source file is empty"
  | .extraFile word => "more than one source file: '" ++ word ++ "'"
  | .unknownOption word => "unknown option '" ++ word ++ "'"
  | .missingValue option => "option '" ++ option ++ "' needs a value"
  | .unexpectedValue option => "option '" ++ option ++ "' takes no value"
  | .badValue option value => "'" ++ value ++ "' is no value for option '" ++ option ++ "'"
  | .repeated option => "option '" ++ option ++ "' is given more than once"

/-! ## Options on one side of the task -/

/-- The options given on one side of the task. -/
structure Flags where
  format : Option Format
  compact : Bool
  verbose : Nat
  quiet : Bool
  strict : Bool
deriving DecidableEq, Repr

namespace Flags

def empty : Flags := ⟨none, false, 0, false, false⟩

def addFormat (f : Flags) (value : String) : Except UsageError Flags :=
  match Format.ofName? value with
  | none => .error (.badValue "--format" value)
  | some format =>
    if f.format.isSome then .error (.repeated "--format")
    else .ok { f with format := some format }

def addCompact (f : Flags) : Except UsageError Flags :=
  if f.compact then .error (.repeated "--compact") else .ok { f with compact := true }

def addQuiet (f : Flags) : Except UsageError Flags :=
  if f.quiet then .error (.repeated "--quiet") else .ok { f with quiet := true }

def addStrict (f : Flags) : Except UsageError Flags :=
  if f.strict then .error (.repeated "--strict") else .ok { f with strict := true }

def addVerbose (f : Flags) : Flags := { f with verbose := f.verbose + 1 }

/-- The options of both sides together. -/
def merge (before behind : Flags) : Options where
  format := (behind.format.or before.format).getD .json
  compact := behind.compact || before.compact
  verbose := if behind.verbose = 0 then before.verbose else behind.verbose
  quiet := behind.quiet || before.quiet
  strict := behind.strict

end Flags

/-! ## Words -/

/-- An argument by its form. -/
inductive Word where
  /-- Two dashes alone: no option follows. -/
  | terminator
  /-- A name behind two dashes, with what stands behind the first equals sign. -/
  | long (name : String) (value : Option String)
  /-- Letters behind one dash, each an option. -/
  | letters (cs : List Char)
  | plain (text : String)
deriving DecidableEq, Repr

def Word.ofString (s : String) : Word :=
  match s.toList with
  | ['-', '-'] => .terminator
  | '-' :: '-' :: cs =>
    let name := String.ofList (cs.takeWhile (· != '='))
    match cs.dropWhile (· != '=') with
    | [] => .long name none
    | _ :: value => .long name (some (String.ofList value))
  | '-' :: c :: cs => .letters (c :: cs)
  | _ => .plain s

/-- A long option other than the version. `inTask` tells the task whose options these are. -/
def addLong (inTask : Option Task) (f : Flags) (name : String) (value : Option String) :
    Except UsageError Flags :=
  match name, value with
  | "format", some value => f.addFormat value
  | "format", none => .error (.missingValue "--format")
  | "compact", none => f.addCompact
  | "quiet", none => f.addQuiet
  | "verbose", none => .ok f.addVerbose
  | "strict", none =>
    if inTask = some .ast then f.addStrict else .error (.unknownOption "--strict")
  | "compact", some _ => .error (.unexpectedValue "--compact")
  | "quiet", some _ => .error (.unexpectedValue "--quiet")
  | "verbose", some _ => .error (.unexpectedValue "--verbose")
  | name, _ => .error (.unknownOption ("--" ++ name))

/-! ## Behind the task -/

/-- Takes a word as the source file. -/
def addFile (file : Option String) (word : String) : Except UsageError (Option String) :=
  match file with
  | some _ => .error (.extraFile word)
  | none => if word = "" then .error .emptyFile else .ok (some word)

def addLetters (f : Flags) : List Char → Except UsageError Flags
  | [] => .ok f
  | 'v' :: cs => addLetters f.addVerbose cs
  | 'q' :: cs => do addLetters (← f.addQuiet) cs
  | c :: _ => .error (.unknownOption ("-" ++ c.toString))

/-- Reads the arguments behind the task. -/
def readBehind (task : Task) (f : Flags) (file : Option String) :
    List String → Except UsageError (Flags × Option String)
  | [] => .ok (f, file)
  | "--format" :: value :: args => do readBehind task (← f.addFormat value) file args
  | arg :: args =>
    match Word.ofString arg with
    | .terminator => do .ok (f, ← args.foldlM addFile file)
    | .long name value => do readBehind task (← addLong (some task) f name value) file args
    | .letters cs => do readBehind task (← addLetters f cs) file args
    | .plain text => do readBehind task f (← addFile file text) args

/-! ## The whole line -/

/-- Letters before the task; `none` stands for the version. -/
def addLettersBefore (f : Flags) : List Char → Except UsageError (Option Flags)
  | [] => .ok (some f)
  | 'V' :: _ => .ok none
  | 'v' :: cs => addLettersBefore f.addVerbose cs
  | 'q' :: cs => do addLettersBefore (← f.addQuiet) cs
  | c :: _ => .error (.unknownOption ("-" ++ c.toString))

/-- Reads the arguments from the options before the task on. Asking for the version ends the
reading at once. -/
def readBefore (f : Flags) : List String → Except UsageError Invocation
  | [] => .error .missingTask
  | "--format" :: value :: args => do readBefore (← f.addFormat value) args
  | arg :: args =>
    match Word.ofString arg with
    | .terminator => .error .missingTask
    | .long "version" none => .ok .version
    | .long name value => do readBefore (← addLong none f name value) args
    | .letters cs => do
      match ← addLettersBefore f cs with
      | none => .ok .version
      | some f => readBefore f args
    | .plain text =>
      match Task.ofName? text with
      | none => .error (.unknownTask text)
      | some task => do
        let (behind, file) ← readBehind task .empty none args
        match file with
        | none => .error .missingFile
        | some file => .ok (.run task file (f.merge behind))

/-- What the arguments of a command line ask for. -/
def read (args : List String) : Except UsageError Invocation := readBefore .empty args

end Command

end JsSyntax
