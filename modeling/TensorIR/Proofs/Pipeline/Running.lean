import TensorIR.Pipeline.Output
import TensorIR.Proofs.Body.Inference
import TensorIR.Proofs.Body.Lowering
import TensorIR.Proofs.Model.Building

/-!
# Runs of passes

A run goes through the passes that are needed up to the first that reports an error, so a run of
more passes continues a run of fewer (`runPasses_append`), and what a run reports is what its passes
report, one after the other (`diagnostics_runPasses`).

Of the four passes only two can fail. The model of any program can be lowered (`runPass_lower`),
since it is well-formed even where it is incomplete; and after shapes were inferred, nothing is left
for the check to find (`runPass_inferShapes_cases`, `runPass_validate`).
-/

set_option autoImplicit false

namespace TensorIR

open Diagnostic (anyError)

/-- The passes that a pass needs are the first ones, up to itself. -/
theorem Pass.required_eq (p : Pass) :
    p.required = [buildModel, lower, inferShapes, validate].take (p.depth + 1) := by
  have hbuild : required .buildModel = [.buildModel] := by
    rw [required]
    rfl
  have hlower : required .lower = [.buildModel, .lower] := by
    rw [required]
    simp only [inputs, List.attach_cons, List.attach_nil, List.map_nil, List.flatMap_singleton,
      hbuild]
    rfl
  have hinfer : required .inferShapes = [.buildModel, .lower, .inferShapes] := by
    rw [required]
    simp only [inputs, List.attach_cons, List.attach_nil, List.map_nil, List.flatMap_singleton,
      hlower]
    rfl
  have hvalidate : required .validate = [.buildModel, .lower, .inferShapes, .validate] := by
    rw [required]
    simp only [inputs, List.attach_cons, List.attach_nil, List.map_nil, List.flatMap_singleton,
      hinfer]
    rfl
  cases p
  · exact hbuild
  · exact hlower
  · exact hinfer
  · exact hvalidate

theorem Pass.required_buildModel : Pass.buildModel.required = [.buildModel] :=
  Pass.required_eq _

theorem Pass.required_of_ne {terminal : Pass} (h : terminal ≠ .buildModel) :
    ∃ later, terminal.required = .buildModel :: .lower :: later := by
  rw [terminal.required_eq]
  cases terminal with
  | buildModel => exact absurd rfl h
  | lower | inferShapes | validate => exact ⟨_, rfl⟩

theorem Pass.required_inferShapes :
    Pass.inferShapes.required = [buildModel, lower, inferShapes] :=
  Pass.required_eq _

/-- The run with one more pass before it. -/
def Run.logged (r : Run) (pass : Pass) (ds : List Diagnostic) : Run :=
  { r with log := (pass, ds) :: r.log }

namespace Compilation

variable {c c' : Compilation} {shapes : List Shape} {pass : Pass} {ds : List Diagnostic}

@[simp] theorem collect_nil (c : Compilation) : c.collect [] = c := by
  simp [collect, anyError]

/-! ## Continuing a run -/

theorem runPasses_of_error (passes : List Pass) (hrun : c.runPass shapes pass = (ds, c'))
    (herror : anyError ds = true) :
    runPasses shapes c (pass :: passes) = ⟨c'.collect ds, [(pass, ds)], some pass⟩ := by
  simp only [runPasses, hrun, herror, if_true]

theorem runPasses_of_ok (passes : List Pass) (hrun : c.runPass shapes pass = (ds, c'))
    (hok : anyError ds = false) :
    runPasses shapes c (pass :: passes) =
      (runPasses shapes (c'.collect ds) passes).logged pass ds := by
  simp only [runPasses, hrun, hok, Bool.false_eq_true, if_false]
  rfl

/-- More passes are run if the first ones succeed, and from where these stopped. -/
theorem runPasses_append (shapes : List Shape) (c : Compilation) (ps qs : List Pass) :
    runPasses shapes c (ps ++ qs) =
      match (runPasses shapes c ps).failed with
      | some _ => runPasses shapes c ps
      | none =>
        let rest := runPasses shapes (runPasses shapes c ps).compilation qs
        { rest with log := (runPasses shapes c ps).log ++ rest.log } := by
  induction ps generalizing c with
  | nil => rfl
  | cons pass ps ih =>
    obtain ⟨ds, c', hrun⟩ : ∃ ds c', c.runPass shapes pass = (ds, c') := ⟨_, _, rfl⟩
    cases herror : anyError ds with
    | true =>
      rw [List.cons_append, runPasses_of_error _ hrun herror, runPasses_of_error _ hrun herror]
    | false =>
      rw [List.cons_append, runPasses_of_ok _ hrun herror, runPasses_of_ok _ hrun herror, ih]
      cases hfailed : (runPasses shapes (c'.collect ds) ps).failed <;>
        simp [Run.logged, hfailed]

theorem isPrefix_log (shapes : List Shape) (c : Compilation) (ps qs : List Pass) :
    (runPasses shapes c ps).log <+: (runPasses shapes c (ps ++ qs)).log := by
  rw [runPasses_append]
  split
  · exact List.prefix_rfl
  · exact List.prefix_append ..

/-- Each run reports as much of what a run of all passes reports as it gets to. -/
theorem isPrefix_log_run (c : Compilation) (terminal : Pass) (shapes : List Shape) :
    (c.run terminal shapes).log <+: (c.run .validate shapes).log := by
  have hsplit : Pass.validate.required = terminal.required ++
      [.buildModel, .lower, .inferShapes, .validate].drop (terminal.depth + 1) := by
    rw [terminal.required_eq, List.take_append_drop, Pass.required_eq]
    rfl
  rw [run, run, hsplit]
  exact isPrefix_log ..

/-! ## What is reported -/

theorem diagnostics_runPass (c : Compilation) (shapes : List Shape) (pass : Pass) :
    (c.runPass shapes pass).2.diagnostics = c.diagnostics := by
  cases pass with
  | buildModel => rfl
  | validate => rfl
  | lower =>
    show (c.lower).2.diagnostics = _
    simp only [lower]
    split <;> rfl
  | inferShapes =>
    show (c.inferShapes shapes).2.diagnostics = _
    simp only [inferShapes]
    split
    · rfl
    · split <;> rfl

/-- The diagnostics of a compilation are those of its passes in order. -/
theorem diagnostics_runPasses (shapes : List Shape) (c : Compilation) (passes : List Pass) :
    (runPasses shapes c passes).compilation.diagnostics =
      c.diagnostics ++ (runPasses shapes c passes).log.flatMap Prod.snd := by
  induction passes generalizing c with
  | nil => exact (List.append_nil _).symm
  | cons pass passes ih =>
    have hkept := c.diagnostics_runPass shapes pass
    obtain ⟨ds, c', hrun⟩ : ∃ ds c', c.runPass shapes pass = (ds, c') := ⟨_, _, rfl⟩
    rw [hrun] at hkept
    replace hkept : c'.diagnostics = c.diagnostics := hkept
    cases herror : anyError ds with
    | true =>
      rw [runPasses_of_error _ hrun herror]
      simp [collect, hkept]
    | false =>
      rw [runPasses_of_ok _ hrun herror]
      simp [Run.logged, ih, collect, hkept, List.append_assoc]

/-! ## Single passes -/

theorem runPass_buildModel (program : Program) (provider : Option Provider)
    (shapes : List Shape) :
    ∃ c, (start program provider).runPass shapes .buildModel = (program.model.diagnostics, c) ∧
      c.program = program ∧ c.provider = provider ∧ c.model = some program.model.model :=
  ⟨_, rfl, rfl, rfl, rfl⟩

/-- A well-formed model is lowered, and nothing is reported. -/
theorem runPass_lower {m : Model} (hm : c.model = some m) (hwell : m.WellFormed)
    (shapes : List Shape) :
    ∃ b c', Body.ofModel m c.provider = .ok b ∧ b.Mirrors m.nodes m.nodes.length ∧
      c.runPass shapes .lower = ([], c') ∧ c'.program = c.program ∧ c'.body = some b := by
  obtain ⟨b, hb, hmirrors⟩ := Body.mirrors_ofModel hwell c.provider
  refine ⟨b, { c with provider := none, body := some b }, hb, hmirrors, ?_, rfl, rfl⟩
  simp only [runPass, lower, hm, hb, reports]

theorem runPass_inferShapes_of_error {b b' : Body} {err : IrError} (hb : c.body = some b)
    (herr : b.inferShapes shapes = (.error err, b')) :
    ∃ c', c.runPass shapes .inferShapes = ([irDiagnostic c.program err], c') :=
  ⟨{ c with body := some b' }, by simp only [runPass, inferShapes, hb, herr, reports]⟩

theorem runPass_inferShapes_of_ok {b b' : Body} {out : List Shape} (hb : c.body = some b)
    (hok : b.inferShapes shapes = (.ok out, b')) :
    ∃ c', c.runPass shapes .inferShapes = ([], c') ∧ c'.body = some b' ∧
      c'.resultShapes = some out :=
  ⟨{ c with body := some b', resultShapes := some out },
    by simp only [runPass, inferShapes, hb, hok, reports], rfl, rfl⟩

/-- Inference over a coherent body reports one error, about the number of shapes or an expression
without an answer, or it reports nothing and all shapes agree. -/
theorem runPass_inferShapes_cases {b : Body} (hb : c.body = some b) (h : b.Coherent)
    (shapes : List Shape) :
    (∃ d c', c.runPass shapes .inferShapes = ([d], c') ∧ d.severity = .error ∧
      (d.code = some .shapeInferenceFailed ∨ d.code = some .inputShapeCount)) ∨
    ∃ b' c', c.runPass shapes .inferShapes = ([], c') ∧ c'.body = some b' ∧ b'.Coherent ∧
      b'.checkShapes = .ok () := by
  by_cases hfits : shapes = [] ∨ shapes.length = b.parameterIds.length
  · obtain ⟨b', hretouched, ⟨err, herr, hstopped⟩ | ⟨out, hok, hsolved⟩⟩ :=
      h.inferShapes_cases hfits
    · obtain ⟨before, id, after, -, -, ⟨e, operands, cause, -, -, -, rfl⟩, -⟩ := hstopped.first
      obtain ⟨c', hrun⟩ := runPass_inferShapes_of_error hb herr
      exact .inl ⟨_, c', hrun, rfl, .inl rfl⟩
    · obtain ⟨c', hrun, hbody, -⟩ := runPass_inferShapes_of_ok hb hok
      exact .inr ⟨b', c', hrun, hbody, h.retouched hretouched, hsolved.checked⟩
  · have hmismatch := not_or.mp hfits
    obtain ⟨c', hrun⟩ := runPass_inferShapes_of_error hb
      (Body.inferShapes_mismatch hmismatch.1 hmismatch.2)
    exact .inl ⟨_, c', hrun, rfl, .inr rfl⟩

theorem runPass_validate {b : Body} (hb : c.body = some b) (h : b.Coherent)
    (hshapes : b.checkShapes = .ok ()) (shapes : List Shape) :
    c.runPass shapes .validate = ([], c) := by
  simp only [runPass, validate, hb, h.validate, hshapes, bind, Except.bind, reports]

/-! ## Building and lowering -/

/-- The compilation with its model built and lowered, whatever it held before. -/
def rebuilt (c : Compilation) (b : Body) : Compilation where
  program := c.program
  provider := none
  model := some c.program.model.model
  body := some b
  resultShapes := c.resultShapes
  diagnostics := c.diagnostics ++ c.program.model.diagnostics
  hasError := c.hasError

/-- The compilation with its model built. -/
def modelled (c : Compilation) : Compilation where
  program := c.program
  provider := c.provider
  model := some c.program.model.model
  body := c.body
  resultShapes := c.resultShapes
  diagnostics := c.diagnostics ++ c.program.model.diagnostics
  hasError := c.hasError

theorem runPasses_modelled (hclean : anyError c.program.model.diagnostics = false)
    (shapes : List Shape) (later : List Pass) :
    runPasses shapes c (.buildModel :: later) =
      (runPasses shapes c.modelled later).logged .buildModel c.program.model.diagnostics := by
  have hbuild : c.runPass shapes .buildModel =
      (c.program.model.diagnostics, { c with model := some c.program.model.model }) := rfl
  rw [runPasses_of_ok _ hbuild hclean]
  simp only [collect, hclean, Bool.or_false, modelled]

/-- A run that goes through is one of a program without errors. -/
theorem clean_of_run {program : Program} {provider : Option Provider} {terminal : Pass}
    (hok : ((start program provider).run terminal shapes).failed = none) :
    anyError program.model.diagnostics = false := by
  by_contra herror
  obtain ⟨c₁, hbuild, -⟩ := runPass_buildModel program provider shapes
  obtain ⟨later, hrequired⟩ : ∃ later, terminal.required = .buildModel :: later := by
    rw [terminal.required_eq]
    exact ⟨_, rfl⟩
  rw [run, hrequired, runPasses_of_error _ hbuild (by simpa using herror)] at hok
  cases hok

theorem runPasses_rebuilt (hclean : anyError c.program.model.diagnostics = false)
    (shapes : List Shape) (later : List Pass) :
    ∃ b, Body.ofModel c.program.model.model c.provider = .ok b ∧
      runPasses shapes c (.buildModel :: .lower :: later) =
        ((runPasses shapes (c.rebuilt b) later).logged .lower []).logged .buildModel
          c.program.model.diagnostics := by
  obtain ⟨b, hb, -⟩ := Body.mirrors_ofModel c.program.wellFormed_model c.provider
  refine ⟨b, hb, ?_⟩
  have hlower : c.modelled.runPass shapes .lower = ([], c.rebuilt b) := by
    simp only [runPass, lower, modelled, hb, reports, rebuilt]
  rw [runPasses_modelled hclean, runPasses_of_ok _ hlower rfl, collect_nil]

/-! ## Runs up to shape inference -/

theorem severity_irDiagnostic (program : Program) (err : IrError) :
    (irDiagnostic program err).severity = .error := by
  unfold irDiagnostic
  split <;> rfl

/-- Without errors in the program, a run gets as far as having the body of the model. -/
theorem runPasses_of_clean {program : Program} {provider : Option Provider} {b : Body}
    (hclean : anyError program.model.diagnostics = false)
    (hb : Body.ofModel program.model.model provider = .ok b) (shapes : List Shape)
    (later : List Pass) :
    ∃ c, c.program = program ∧ c.body = some b ∧
      runPasses shapes (start program provider) (.buildModel :: .lower :: later) =
        ((runPasses shapes c later).logged .lower []).logged .buildModel
          program.model.diagnostics := by
  obtain ⟨b', hb', hrun⟩ := runPasses_rebuilt (c := start program provider) hclean shapes later
  obtain rfl := Except.ok.inj (hb.symm.trans hb')
  exact ⟨(start program provider).rebuilt b, rfl, rfl, hrun⟩

/-- An error of shape inference is the last thing that is reported. -/
theorem run_of_inferShapes_error {program : Program} {provider : Option Provider} {b : Body}
    {err : IrError} {terminal : Pass} (hclean : anyError program.model.diagnostics = false)
    (hb : Body.ofModel program.model.model provider = .ok b)
    (herr : (b.inferShapes shapes).1 = .error err)
    (hterminal : terminal = .inferShapes ∨ terminal = .validate) :
    ((start program provider).run terminal shapes).failed = some .inferShapes ∧
      ((start program provider).run terminal shapes).log =
        [(.buildModel, program.model.diagnostics), (.lower, []),
          (.inferShapes, [irDiagnostic program err])] := by
  obtain ⟨later, hrequired⟩ : ∃ later,
      terminal.required = .buildModel :: .lower :: .inferShapes :: later := by
    rw [terminal.required_eq]
    rcases hterminal with rfl | rfl <;> exact ⟨_, rfl⟩
  obtain ⟨c, rfl, hbody, hrun⟩ := runPasses_of_clean hclean hb shapes (.inferShapes :: later)
  obtain ⟨c', hinfer⟩ := runPass_inferShapes_of_error hbody (Prod.ext herr rfl)
  have herror : anyError [irDiagnostic c.program err] = true := by
    simp [anyError, severity_irDiagnostic]
  rw [run, hrequired, hrun, runPasses_of_error _ hinfer herror]
  exact ⟨rfl, rfl⟩

/-- An answer of shape inference is kept, with the body that it has left. -/
theorem run_of_inferShapes_ok {program : Program} {provider : Option Provider} {b : Body}
    {out : List Shape} (hclean : anyError program.model.diagnostics = false)
    (hb : Body.ofModel program.model.model provider = .ok b)
    (hok : (b.inferShapes shapes).1 = .ok out) :
    ((start program provider).run .inferShapes shapes).failed = none ∧
      ((start program provider).run .inferShapes shapes).compilation.resultShapes = some out ∧
      ((start program provider).run .inferShapes shapes).compilation.body =
        some (b.inferShapes shapes).2 := by
  obtain ⟨c, -, hbody, hrun⟩ := runPasses_of_clean hclean hb shapes [.inferShapes]
  obtain ⟨c', hinfer, hbody', hshapes⟩ := runPass_inferShapes_of_ok hbody (Prod.ext hok rfl)
  rw [run, Pass.required_inferShapes, hrun, runPasses_of_ok _ hinfer rfl, collect_nil]
  exact ⟨rfl, hshapes, hbody'⟩

end Compilation

end TensorIR
