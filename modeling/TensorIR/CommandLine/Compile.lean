import TensorIR.CommandLine.Options

/-!
# The command

The command compiles one source file and publishes one text, on the standard output or in a file.
Everything else it has to say goes to the standard error: the diagnostics, and what it is doing
when it was asked to say so. It exits with 0 if it published the text, with 1 if the program is
faulty, and with 2 if the arguments or the files are.

Nothing here touches a file. What is in the source file, and what comes of storing the text, is left
to a file system, and what it takes to find out, to the monad that the file system is in
(`FileSystem`). So the same functions run on files and on a directory that is a value. Messages
about the time a pass took are kept apart from the others, because the time is not known here
either.
-/

set_option autoImplicit false

namespace TensorIR.CommandLine

/-- A line on the standard error. -/
inductive Notice where
  | line (text : String)
  /-- A pass is complete. -/
  | passDone (pass : Pass)
  /-- The text that was asked for, published there. -/
  | published (text : String)
deriving DecidableEq, Repr

/-- A text to publish, or the exit code if there is none; and what is said on the way. -/
structure Report where
  text : Except Nat String
  notices : List Notice

/-- What the command leaves behind, files aside. -/
structure Outcome where
  exit : Nat
  stdout : String
  notices : List Notice

/-- The streams on which the command leaves something. -/
inductive Stream where
  | output
  | error
deriving DecidableEq, Repr

/-- How files are read and how texts are stored in them, with reasons where that is not possible. A
text whose file is a stream of the command itself appears on that stream. -/
structure FileSystem (m : Type → Type) where
  read : String → m (Except String String)
  store : String → String → m (Except String (Option Stream))

/-- The version that the command reports. -/
def version : String := "lirc 0.1.0\n"

/-- The help that the command gives. -/
def help : String :=
  "Usage: lirc [OPTIONS] <SOURCE>\n\n" ++
  "Arguments:\n" ++
  "  <SOURCE>  Input source file\n\n" ++
  "Options:\n" ++
  "  -o, --output <OUTPUT>     Output file path (stdout when omitted)\n" ++
  "      --emit <EMIT>         Output stage: lir, json, dot, fingerprint or model\n" ++
  "      --input-shape <DIMS>  Override a graph input shape (repeatable)\n" ++
  "      --skip-validate       Skip structural and shape validation of the lowered body\n" ++
  "      --verbose             Print compiler phases and timing\n" ++
  "  -h, --help                Print help\n" ++
  "  -V, --version             Print version\n"

/-- The line as it is printed, given how long each pass took in milliseconds. -/
def Notice.render (elapsed : Pass → String) : Notice → String
  | .line text => text ++ "\n"
  | .passDone pass => s!"lirc: {pass.name} complete, {elapsed pass}ms\n"
  | .published text => text

/-- A line said by the command itself. -/
def announce (text : String) : Notice := .line ("lirc: " ++ text)

/-- Lines that are said only on request. -/
def Options.whenVerbose (o : Options) (notices : List Notice) : List Notice :=
  if o.verbose then notices else []

/-- The name of a text in what the command says about its work. -/
def Emit.title : Emit → String
  | .lir => "Lir"
  | .json => "Json"
  | .dot => "Dot"
  | .fingerprint => "Fingerprint"
  | .model => "Model"

/-- Diagnostics, each with its place in the source. -/
def diagnosticLines (path : String) (source : List Char) (ds : List Diagnostic) : List Notice :=
  ds.map fun d => .line (d.render path source)

/-- Compile a source without errors in its text. -/
def compileProgram (o : Options) (source : List Char) (program : Program) : Report :=
  let run := (Compilation.start program none).run (o.emit.terminal (!o.skipValidate)) o.inputShapes
  let notices :=
    o.whenVerbose (announce s!"parsed {program.statements.length} statements" ::
      run.log.map fun (pass, _) => .passDone pass) ++
    diagnosticLines o.source source run.compilation.diagnostics
  match run.failed with
  | some pass => ⟨.error 1, notices ++ [announce pass.failure]⟩
  | none =>
    match run.compilation.output o.emit with
    | .ok text => ⟨.ok text, notices⟩
    | .error err => ⟨.error 1, notices ++ [announce s!"error: {err.message}"]⟩

/-- Compile what was read from the source file, if it could be read. -/
def compile (o : Options) (content : Except String String) : Report :=
  let opening := o.whenVerbose
    [announce s!"source = {o.source}", announce s!"emit   = {Emit.title o.emit}"]
  match content with
  | .error reason => ⟨.error 2, opening ++ [announce s!"error: {o.source}: {reason}"]⟩
  | .ok content =>
    let source := content.toList
    let parsed := parse source
    match parsed.errors, parsed.program with
    | [], some program =>
      let report := compileProgram o source program
      { report with notices := opening ++ report.notices }
    | [], none => ⟨.error 1, opening ++ [announce "parse failed with no output"]⟩
    | errors, _ =>
      ⟨.error 1, opening ++ diagnosticLines o.source source (errors.map SourceError.diagnostic)⟩

/-- What is left behind by a text that was stored, apart from its file. -/
def Options.stored (o : Options) (path text : String) (stream : Option Stream) : Outcome :=
  let wrote := o.whenVerbose [announce s!"wrote {path}"]
  match stream with
  | none => ⟨0, "", wrote⟩
  | some .output => ⟨0, text, wrote⟩
  | some .error => ⟨0, "", .published text :: wrote⟩

/-- What is left behind by a text that was handed over to be stored. -/
def Options.settle (o : Options) (path text : String) : Except String (Option Stream) → Outcome
  | .ok stream => o.stored path text stream
  | .error reason => ⟨2, "", [announce s!"error: {path}: {reason}"]⟩

/-- What is left behind when this was said before. -/
def Outcome.preceded (notices : List Notice) (outcome : Outcome) : Outcome :=
  { outcome with notices := notices ++ outcome.notices }

section

variable {m : Type → Type} [Monad m]

/-- Publish the text of a report, if it has one: a text with a path is handed over to be stored
there. What is said in the outcome follows what the report says. -/
def publish (o : Options) (store : String → String → m (Except String (Option Stream)))
    (report : Report) : m Outcome :=
  match report.text, o.output with
  | .error exit, _ => pure ⟨exit, "", []⟩
  | .ok text, none => pure ⟨0, text, []⟩
  | .ok text, some path => o.settle path text <$> store path text

/-- Compile what was read from the source file, and publish the text. -/
def conclude (o : Options) (store : String → String → m (Except String (Option Stream)))
    (content : Except String String) : m Outcome :=
  let report := compile o content
  Outcome.preceded report.notices <$> publish o store report

/-- What a request comes to. -/
def perform (files : FileSystem m) : Request → m Outcome
  | .help => pure ⟨0, help, []⟩
  | .version => pure ⟨0, version, []⟩
  | .compile o => files.read o.source >>= conclude o files.store

end

end TensorIR.CommandLine
