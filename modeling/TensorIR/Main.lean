import TensorIR.CommandLine.Compile
import TensorIR.CommandLine.Path

/-!
# The program

The command reads its source file, compiles it, and publishes the result. All decisions are made by
the functions it calls; what is left for here is to open files, to measure how long the passes take
when that is asked for, and to print.
-/

set_option autoImplicit false

namespace TensorIR.CommandLine

/-- The operating system's reason for a failure. Its number may come with a minus sign. -/
def reason : IO.Error → String
  | .noFileOrDirectory .. => FileError.notFound.message
  | .permissionDenied .. => FileError.accessDenied.message
  | err@(.inappropriateType _ code _) | err@(.invalidArgument _ code _)
  | err@(.noSuchThing _ code _) | err@(.resourceExhausted _ code _) | err@(.otherError code _) =>
    ((FileError.ofCode? code.toInt32.toInt.natAbs).map FileError.message).getD (toString err)
  | err => toString err

/-- The outcome of something that may fail. -/
def attempt {α : Type} (action : IO α) : IO (Except String α) := do
  try
    return .ok (← action)
  catch err =>
    return .error (reason err)

/-- The text of a file. -/
def readText (path : String) : IO (Except String String) := do
  match ← attempt (IO.FS.readBinFile path) with
  | .error err => return .error err
  | .ok bytes =>
    match String.fromUTF8? bytes with
    | some text => return .ok text
    | none => return .error "stream did not contain valid UTF-8"

/-- Store a text in a file. Only when it is out of the buffer is it known to be stored. -/
def writeText (path text : String) : IO Unit :=
  IO.FS.withFile path .write fun handle => do
    handle.putStr text
    handle.flush

/-- The files of the system. A file that is a stream of the command shows the text by itself. -/
def systemFiles : FileSystem IO where
  read := readText
  store path text := return (← attempt (writeText path text)).map fun _ => none

/-- A number of nanoseconds in milliseconds, with one digit after the point. -/
def milliseconds (nanoseconds : Nat) : String :=
  s!"{nanoseconds / 1000000}.{nanoseconds / 100000 % 10}"

/-- How long each pass of a compilation takes, in milliseconds. -/
def measure (o : Options) (source : List Char) : IO (List (Pass × String)) := do
  match (parse source).program with
  | none => return []
  | some program =>
    let mut compilation := Compilation.start program none
    let mut times := #[]
    for pass in (o.emit.terminal (!o.skipValidate)).required do
      let before ← IO.monoNanosNow
      let current := compilation
      compilation ← IO.lazyPure fun _ => (current.runPass o.inputShapes pass).2
      let after ← IO.monoNanosNow
      times := times.push (pass, milliseconds (after - before))
    return times.toList

/-- Print what is said. -/
def say (elapsed : Pass → String) (notices : List Notice) : IO Unit :=
  IO.eprint (String.join (notices.map (Notice.render elapsed)))

/-- Print an outcome. The answer is the exit code. -/
def print (outcome : Outcome) (elapsed : Pass → String) : IO UInt32 := do
  say elapsed outcome.notices
  IO.print outcome.stdout
  return outcome.exit.toUInt32

/-- Compile the source file and publish the result. What the report says is said before that. -/
def compileFile (o : Options) : IO UInt32 := do
  let content ← systemFiles.read o.source
  let report := compile o content
  let times ← match o.verbose, content with
    | true, .ok text => measure o text.toList
    | _, _ => pure []
  let elapsed (pass : Pass) := (times.lookup pass).getD "0.0"
  say elapsed report.notices
  print (← publish o systemFiles.store report) elapsed

end TensorIR.CommandLine

open TensorIR.CommandLine in
/-- The command. -/
def main (arguments : List String) : IO UInt32 := do
  match read arguments with
  | .error err =>
    IO.eprintln s!"error: {err.message}\n\nFor more information, try '--help'."
    return 2
  | .ok (.compile o) => compileFile o
  | .ok request => print (← perform systemFiles request) fun _ => "0.0"
