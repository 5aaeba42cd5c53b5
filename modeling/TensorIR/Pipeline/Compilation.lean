import TensorIR.Body.Check
import TensorIR.Body.Lowering
import TensorIR.Model.Build
import TensorIR.Pipeline.Pass

/-!
# Compiling a program

A compilation holds a program and everything the passes have made of it so far. Running it up to a
pass runs all the passes that this one needs, and stops at the first that reports an error. Each
pass reports its problems as diagnostics, also the errors of a body, which are pinned to the
statement they come from where that can be told.

The provider of user rules is handed over to the body when it is lowered; a compilation has it only
until then.
-/

set_option autoImplicit false

namespace TensorIR

/-- A program and what the passes have made of it. -/
structure Compilation where
  program : Program
  provider : Option Provider
  model : Option Model
  body : Option Body
  resultShapes : Option (List Shape)
  diagnostics : List Diagnostic
  hasError : Bool

/-- What a run of passes did: the compilation as it left it, the diagnostics pass by pass, and the
pass at which it stopped, if it failed. -/
structure Run where
  compilation : Compilation
  log : List (Pass × List Diagnostic)
  failed : Option Pass

namespace Compilation

/-- The compilation of a program at its beginning. -/
def start (program : Program) (provider : Option Provider) : Compilation where
  program := program
  provider := provider
  model := none
  body := none
  resultShapes := none
  diagnostics := []
  hasError := false

/-! ## Reporting errors of a body -/

/-- The span of the first statement whose node has a name, or of the whole program. -/
def spanOf (program : Program) (name : String) : Span :=
  match program.statements.zipIdx.find? fun (s, i) => s.nodeName i = name with
  | some (s, _) => s.span
  | none => program.span

/-- The report of an error of a body. -/
def irDiagnostic (program : Program) (err : IrError) : Diagnostic :=
  match err with
  | .shapeInference node _ =>
    .error .shapeInferenceFailed (spanOf program node) err.message
  | .violated _ => .error .unsoundBody program.span err.message
  | .arityMismatch .graphInputShapes _ _ =>
    { Diagnostic.error .inputShapeCount program.span err.message with
      hint := some "pass one --input-shape per Parameter, in order" }
  | _ => .error .loweringFailed program.span err.message

/-- The reports of an outcome: none if it is a success. -/
def reports {α : Type} (program : Program) : Except IrError α → List Diagnostic
  | .ok _ => []
  | .error err => [irDiagnostic program err]

/-! ## The passes -/

/-- Build the model. -/
def buildModel (c : Compilation) : List Diagnostic × Compilation :=
  let build := c.program.model
  (build.diagnostics, { c with model := some build.model })

/-- Lower the model, handing over the provider. -/
def lower (c : Compilation) : List Diagnostic × Compilation :=
  let outcome := match c.model with
    | some model => Body.ofModel model c.provider
    | none => .error (.uninitialized "no model to lower")
  let c := { c with provider := none }
  (reports c.program outcome,
    match outcome with
    | .ok body => { c with body := some body }
    | .error _ => c)

/-- Infer the shapes of the body. -/
def inferShapes (c : Compilation) (shapes : List Shape) : List Diagnostic × Compilation :=
  match c.body with
  | none => ([irDiagnostic c.program (.uninitialized "no linear IR")], c)
  | some body =>
    let (outcome, body) := body.inferShapes shapes
    let c := { c with body := some body }
    (reports c.program outcome,
      match outcome with
      | .ok found => { c with resultShapes := some found }
      | .error _ => c)

/-- Check the body. -/
def validate (c : Compilation) : List Diagnostic × Compilation :=
  let outcome : Except IrError Unit := match c.body with
    | some body => do body.validate; body.checkShapes
    | none => .error (.uninitialized "no linear IR")
  (reports c.program outcome, c)

/-- Run one pass, with the shapes for the graph's inputs. -/
def runPass (c : Compilation) (shapes : List Shape) : Pass → List Diagnostic × Compilation
  | .buildModel => c.buildModel
  | .lower => c.lower
  | .inferShapes => c.inferShapes shapes
  | .validate => c.validate

/-- Take over the diagnostics of a pass. -/
def collect (c : Compilation) (ds : List Diagnostic) : Compilation :=
  { c with
    diagnostics := c.diagnostics ++ ds
    hasError := c.hasError || Diagnostic.anyError ds }

/-- Run passes one after the other, up to the first that reports an error. -/
def runPasses (shapes : List Shape) : Compilation → List Pass → Run
  | c, [] => ⟨c, [], none⟩
  | c, pass :: passes =>
    let (ds, c) := c.runPass shapes pass
    let c := c.collect ds
    if Diagnostic.anyError ds then ⟨c, [(pass, ds)], some pass⟩
    else
      let rest := runPasses shapes c passes
      { rest with log := (pass, ds) :: rest.log }

/-- Run the passes that a pass needs, and the pass. -/
def run (c : Compilation) (terminal : Pass) (shapes : List Shape) : Run :=
  runPasses shapes c terminal.required

end Compilation

/-- What is said of a pass at which a run stopped. -/
def Pass.failure (p : Pass) : String := s!"pass '{p.name}' failed"

end TensorIR
