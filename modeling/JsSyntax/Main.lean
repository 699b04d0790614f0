import JsSyntax.Command.Run

/-! # The command line program

Reads the source that the arguments name, and writes what the command gives.
-/

set_option autoImplicit false

namespace JsSyntax

namespace Command

/-- Bytes as text. -/
def decode (bytes : ByteArray) : Except ReadFailure String :=
  match String.fromUTF8? bytes with
  | some text => .ok text
  | none => .error .notUtf8

/-- The bytes of standard input, to its end. -/
def readStandardInput : IO (Except ReadFailure String) := do
  return decode (← (← IO.getStdin).readBinToEnd)

/-- The system's error code for reading a directory as a file. -/
def directoryCode : UInt32 := 21

/-- The text of a file. -/
def readFile (file : String) : IO (Except ReadFailure String) := do
  try
    return decode (← IO.FS.readBinFile file)
  catch
    | .noFileOrDirectory .. => return .error .notFound
    | .permissionDenied .. => return .error .denied
    | .inappropriateType _ code _ =>
      return .error (if code = directoryCode then .isDirectory else .notDirectory)
    | e => throw e

def readSource (file : String) : IO (Except ReadFailure String) :=
  if file = standardInput then readStandardInput else readFile file

end Command

end JsSyntax

open JsSyntax Command

def main (args : List String) : IO UInt32 := do
  match read args with
  | .error e =>
    (← IO.getStderr).putStr ("error: " ++ e.message ++ "\n")
    return 2
  | .ok invocation =>
    let source ← match invocation.source? with
      | some file => readSource file
      | none => pure (.ok "")
    let result := invocation.execute source
    (← IO.getStderr).putStr result.stderr
    (← IO.getStdout).putStr result.stdout
    return result.code.toUInt32
