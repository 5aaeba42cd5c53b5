import TensorIR.Pipeline.Output
import TensorIR.Shape.Written

/-!
# Command line arguments

The program takes one source file and a few options, in any order. An option with a value takes it
from the same argument, after an `=`, or from the next one; the short option also takes it directly.
After an argument of two dashes everything is a file.

Arguments are read from left to right, and the first that is wrong decides. A request for help or
for the version counts as soon as it is met. Options that only make sense once may be given only
once; shapes for the graph's inputs may be given repeatedly and keep their order.
-/

set_option autoImplicit false

namespace TensorIR.CommandLine

/-- What to compile, and how. -/
structure Options where
  source : String
  output : Option String
  emit : Emit
  inputShapes : List Shape
  skipValidate : Bool
  verbose : Bool

/-- What the arguments ask for. -/
inductive Request where
  | help
  | version
  | compile (options : Options)

/-- The options by their long names. -/
inductive Flag where
  | output
  | emit
  | inputShape
  | skipValidate
  | verbose
  | help
  | version
deriving DecidableEq, Repr

/-- Why arguments are refused. -/
inductive UsageError where
  | unknown (argument : String)
  | missingValue (flag : Flag)
  | unwantedValue (flag : Flag)
  | invalidValue (flag : Flag) (value : String)
  | repeated (flag : Flag)
  | extraFile (argument : String)
  | emptyFile
  | missingFile
deriving DecidableEq, Repr

def Flag.name : Flag → String
  | .output => "output"
  | .emit => "emit"
  | .inputShape => "input-shape"
  | .skipValidate => "skip-validate"
  | .verbose => "verbose"
  | .help => "help"
  | .version => "version"

def Flag.all : List Flag :=
  [.output, .emit, .inputShape, .skipValidate, .verbose, .help, .version]

/-- The option takes a value. -/
def Flag.takesValue : Flag → Bool
  | .output | .emit | .inputShape => true
  | _ => false

def UsageError.message : UsageError → String
  | .unknown argument => s!"unexpected argument '{argument}'"
  | .missingValue flag => s!"a value is required for '--{flag.name}'"
  | .unwantedValue flag => s!"'--{flag.name}' takes no value"
  | .invalidValue flag value => s!"invalid value '{value}' for '--{flag.name}'"
  | .repeated flag => s!"'--{flag.name}' cannot be used multiple times"
  | .extraFile argument => s!"unexpected argument '{argument}'"
  | .emptyFile => "a source file needs a name"
  | .missingFile => "a source file is required"

/-- The options as far as they have been read. -/
structure Draft where
  source : Option String := none
  output : Option String := none
  emit : Option Emit := none
  inputShapes : List Shape := []
  skipValidate : Bool := false
  verbose : Bool := false

namespace Draft

/-- The options once all arguments have been read. -/
def finish (d : Draft) : Except UsageError Request :=
  match d.source with
  | none => .error .missingFile
  | some source =>
    .ok (.compile {
      source := source
      output := d.output
      emit := d.emit.getD .lir
      inputShapes := d.inputShapes
      skipValidate := d.skipValidate
      verbose := d.verbose })

/-- Take a file name. -/
def file (d : Draft) (name : String) : Except UsageError Draft :=
  if d.source.isSome then .error (.extraFile name)
  else if name.isEmpty then .error .emptyFile
  else .ok { d with source := some name }

/-- Take an option with its value. -/
def value (d : Draft) (flag : Flag) (text : String) : Except UsageError Draft :=
  match flag with
  | .output =>
    if d.output.isSome then .error (.repeated flag)
    else if text.isEmpty then .error (.invalidValue flag text)
    else .ok { d with output := some text }
  | .emit =>
    match Emit.ofName? text with
    | none => .error (.invalidValue flag text)
    | some emit =>
      if d.emit.isSome then .error (.repeated flag) else .ok { d with emit := some emit }
  | .inputShape =>
    match Shape.read text with
    | .error _ => .error (.invalidValue flag text)
    | .ok shape => .ok { d with inputShapes := d.inputShapes ++ [shape] }
  | _ => .error (.unwantedValue flag)

/-- Take an option without a value. The answer is a request if the option is one. -/
def switch (d : Draft) (flag : Flag) : Except UsageError (Draft ⊕ Request) :=
  match flag with
  | .skipValidate =>
    if d.skipValidate then .error (.repeated flag)
    else .ok (.inl { d with skipValidate := true })
  | .verbose =>
    if d.verbose then .error (.repeated flag) else .ok (.inl { d with verbose := true })
  | .help => .ok (.inr .help)
  | .version => .ok (.inr .version)
  | _ => .error (.missingValue flag)

end Draft

/-- What one argument is. -/
inductive Argument where
  /-- The end of the options. -/
  | separator
  | file (name : String)
  /-- An option, and its value if it came in the same argument. -/
  | flag (flag : Flag) (attached : Option String)
  | unknown (argument : String)
deriving DecidableEq, Repr

/-- An argument with two dashes and more: a name, and a value after an `=`. -/
def longArgument (argument : String) (cs : List Char) : Argument :=
  let name := String.ofList (cs.takeWhile (· ≠ '='))
  let attached := match cs.dropWhile (· ≠ '=') with
    | _ :: value => some (String.ofList value)
    | [] => none
  match Flag.all.find? (·.name = name) with
  | some flag => .flag flag attached
  | none => .unknown argument

/-- An argument with one dash: a letter, and for the option that takes a value perhaps that. -/
def shortArgument (argument : String) : List Char → Argument
  | 'h' :: _ => .flag .help none
  | 'V' :: _ => .flag .version none
  | ['o'] => .flag .output none
  | 'o' :: '=' :: value => .flag .output (some (String.ofList value))
  | 'o' :: value => .flag .output (some (String.ofList value))
  | _ => .unknown argument

/-- What an argument is. A single dash is the name of a file. -/
def Argument.ofString (argument : String) : Argument :=
  match argument.toList with
  | ['-', '-'] => .separator
  | '-' :: '-' :: cs => longArgument argument cs
  | ['-'] => .file argument
  | '-' :: cs => shortArgument argument cs
  | _ => .file argument

/-- Read the arguments after the end of the options. -/
def readFiles : Draft → List String → Except UsageError Request
  | d, [] => d.finish
  | d, argument :: rest => do readFiles (← d.file argument) rest

/-- Read arguments, `waiting` being the option that still needs its value. -/
def readArguments : Draft → Option Flag → List String → Except UsageError Request
  | d, none, [] => d.finish
  | _, some flag, [] => .error (.missingValue flag)
  | d, some flag, argument :: rest =>
    match Argument.ofString argument with
    | .file text => do readArguments (← d.value flag text) none rest
    | _ => .error (.missingValue flag)
  | d, none, argument :: rest =>
    match Argument.ofString argument with
    | .separator => readFiles d rest
    | .file name => do readArguments (← d.file name) none rest
    | .unknown argument => .error (.unknown argument)
    | .flag flag (some text) =>
      if flag.takesValue then do readArguments (← d.value flag text) none rest
      else .error (.unwantedValue flag)
    | .flag flag none =>
      if flag.takesValue then readArguments d (some flag) rest
      else
        match d.switch flag with
        | .error err => .error err
        | .ok (.inl d) => readArguments d none rest
        | .ok (.inr request) => .ok request

/-- What a list of arguments asks for. -/
def read (arguments : List String) : Except UsageError Request := readArguments {} none arguments

end TensorIR.CommandLine
