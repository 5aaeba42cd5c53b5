import TensorIR.Source.Parser

/-!
# Diagnostics

A diagnostic is what the user gets to see of a problem: how serious it is, a stable code, where it
is, a message, perhaps a hint, and perhaps other places that have to do with it. Each code has one
meaning for good; here it is its name.
-/

set_option autoImplicit false

namespace TensorIR

/-- How serious a problem is. Only errors stop a compilation. -/
inductive Severity where
  | error
  | warning
deriving DecidableEq, Repr

/-- The kinds of problems. -/
inductive Code where
  /-- The text is no program. -/
  | malformedSource
  | unknownOperation
  | missingAttribute
  | illTypedAttribute
  | undefinedValue
  | valueDefinedTwice
  | operandCount
  | missingOutput
  | ignoredAttribute
  | unusableName
  /-- A model could not be lowered. -/
  | loweringFailed
  | shapeInferenceFailed
  /-- A lowered body is not sound. -/
  | unsoundBody
  | inputShapeCount
deriving DecidableEq, Repr

/-- The code as it is written. -/
def Code.text : Code → String
  | .malformedSource => "E0001"
  | .unknownOperation => "E0100"
  | .missingAttribute => "E0101"
  | .illTypedAttribute => "E0102"
  | .undefinedValue => "E0103"
  | .valueDefinedTwice => "E0104"
  | .operandCount => "E0105"
  | .missingOutput => "E0106"
  | .ignoredAttribute => "W0100"
  | .unusableName => "W0101"
  | .loweringFailed => "E0200"
  | .shapeInferenceFailed => "E0201"
  | .unsoundBody => "E0202"
  | .inputShapeCount => "E0203"

/-- Another place that has to do with a problem. -/
structure RelatedSpan where
  span : Span
  label : String
deriving DecidableEq, Repr

/-- A problem as it is reported. -/
structure Diagnostic where
  severity : Severity
  code : Option Code := none
  span : Span
  message : String
  hint : Option String := none
  related : List RelatedSpan := []
deriving DecidableEq, Repr

def Severity.name : Severity → String
  | .error => "error"
  | .warning => "warning"

namespace Diagnostic

/-- An error of a kind. -/
def error (code : Code) (span : Span) (message : String) : Diagnostic where
  severity := .error
  code := some code
  span := span
  message := message

/-- A warning of a kind. -/
def warning (code : Code) (span : Span) (message : String) : Diagnostic where
  severity := .warning
  code := some code
  span := span
  message := message

/-- The report without its place. -/
def headline (d : Diagnostic) : String :=
  let code := match d.code with
    | some code => s!"[{code.text}]"
    | none => ""
  let hint := match d.hint with
    | some hint => s!"\n  hint: {hint}"
    | none => ""
  d.severity.name ++ code ++ ": " ++ d.message ++ hint

/-- A byte offset of a file as the user reads it. -/
def place (path : String) (source : List Char) (offset : Nat) : String :=
  let (line, column) := Source.lineColumn source offset
  s!"{path}:{line}:{column}"

/-- The report with its place, and the related places on lines of their own. -/
def render (d : Diagnostic) (path : String) (source : List Char) : String :=
  place path source d.span.start ++ ": " ++ d.headline ++
    String.join (d.related.map fun r =>
      "\n  " ++ place path source r.span.start ++ ": note: " ++ r.label)

/-- Some of the problems are errors. -/
def anyError (ds : List Diagnostic) : Bool := ds.any (·.severity = .error)

end Diagnostic

/-- The report of what is wrong with a text. -/
def SourceError.diagnostic (e : SourceError) : Diagnostic :=
  .error .malformedSource e.span e.message

end TensorIR
