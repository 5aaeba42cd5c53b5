import TensorIR.Proofs.Pipeline.Running

/-!
# The check at the end never fails

A run stops while the model is built, or in shape inference, or it goes through (`inferred_run`);
the check that may follow has nothing to report (`run_validate`). So a compilation with the check
and one without it come to the same, for every text that is made from a body, and the codes that
stand for a defect of the compiler itself are never reported.
-/

set_option autoImplicit false

namespace TensorIR.Compilation

open Diagnostic (anyError)

/-- What a run up to shape inference comes to: it stops at the first pass or at the last one, or it
leaves a body in which everything agrees. -/
inductive Inferred (program : Program) : Run → Prop where
  | unbuilt (c : Compilation) (herror : anyError program.model.diagnostics = true) :
    Inferred program ⟨c, [(.buildModel, program.model.diagnostics)], some .buildModel⟩
  | stopped (c : Compilation) (d : Diagnostic)
      (hok : anyError program.model.diagnostics = false) (hseverity : d.severity = .error)
      (hcode : d.code = some .shapeInferenceFailed ∨ d.code = some .inputShapeCount) :
    Inferred program ⟨c, [(.buildModel, program.model.diagnostics), (.lower, []),
      (.inferShapes, [d])], some .inferShapes⟩
  | finished (c : Compilation) (b : Body) (hok : anyError program.model.diagnostics = false)
      (hbody : c.body = some b) (hcoherent : b.Coherent) (hchecked : b.checkShapes = .ok ()) :
    Inferred program ⟨c, [(.buildModel, program.model.diagnostics), (.lower, []),
      (.inferShapes, [])], none⟩

theorem inferred_run (program : Program) (provider : Option Provider) (shapes : List Shape) :
    Inferred program ((start program provider).run .inferShapes shapes) := by
  obtain ⟨c₁, hbuild, -, -, hmodel⟩ := runPass_buildModel program provider shapes
  rw [run, show Pass.inferShapes.required = [.buildModel, .lower, .inferShapes] from
    Pass.required_eq _]
  cases herror : anyError program.model.diagnostics with
  | true =>
    rw [runPasses_of_error _ hbuild herror]
    exact .unbuilt _ herror
  | false =>
    obtain ⟨b, c₂, -, hmirrors, hlower, -, hbody⟩ := runPass_lower
      (c := c₁.collect program.model.diagnostics) hmodel program.wellFormed_model shapes
    rw [runPasses_of_ok _ hbuild herror, runPasses_of_ok _ hlower rfl, collect_nil]
    rcases runPass_inferShapes_cases hbody hmirrors.toCoherent shapes with
      ⟨d, c₃, hinfer, hseverity, hcode⟩ | ⟨b', c₃, hinfer, hbody', hcoherent, hchecked⟩
    · have hd : anyError [d] = true := by simp [anyError, hseverity]
      rw [runPasses_of_error _ hinfer hd]
      exact .stopped _ d herror hseverity hcode
    · rw [runPasses_of_ok _ hinfer rfl, collect_nil]
      exact .finished _ b' herror hbody' hcoherent hchecked

/-- A run up to the check is one up to shape inference, and a check without reports if that went
through. -/
theorem run_validate (program : Program) (provider : Option Provider) (shapes : List Shape) :
    (start program provider).run .validate shapes =
      match ((start program provider).run .inferShapes shapes).failed with
      | some _ => (start program provider).run .inferShapes shapes
      | none =>
        { (start program provider).run .inferShapes shapes with
          log := ((start program provider).run .inferShapes shapes).log ++ [(.validate, [])] } := by
  have hsplit : Pass.validate.required = Pass.inferShapes.required ++ [.validate] := by
    rw [Pass.required_eq, Pass.required_eq]
    rfl
  have hrun : (start program provider).run .validate shapes =
      runPasses shapes (start program provider) (Pass.inferShapes.required ++ [.validate]) := by
    rw [run, hsplit]
  rw [hrun, runPasses_append]
  have hinferred := inferred_run program provider shapes
  rw [run] at hinferred ⊢
  generalize runPasses shapes (start program provider) Pass.inferShapes.required = r at hinferred ⊢
  cases hinferred with
  | unbuilt c herror => rfl
  | stopped c d hok hseverity hcode => rfl
  | finished c b hok hbody hcoherent hchecked =>
    simp only [runPasses_of_ok [] (runPass_validate hbody hcoherent hchecked shapes) rfl,
      collect_nil]
    rfl

theorem run_validate_same (program : Program) (provider : Option Provider) (shapes : List Shape) :
    ((start program provider).run .validate shapes).failed =
        ((start program provider).run .inferShapes shapes).failed ∧
      ((start program provider).run .validate shapes).compilation =
        ((start program provider).run .inferShapes shapes).compilation := by
  rw [run_validate]
  split <;> exact ⟨rfl, rfl⟩

/-- Whether there is to be a check makes no difference to what is made. -/
theorem run_terminal (program : Program) (provider : Option Provider) (shapes : List Shape)
    (emit : Emit) (checked : Bool) :
    ((start program provider).run (emit.terminal checked) shapes).failed =
        ((start program provider).run (emit.terminal false) shapes).failed ∧
      ((start program provider).run (emit.terminal checked) shapes).compilation =
        ((start program provider).run (emit.terminal false) shapes).compilation := by
  have hsame := run_validate_same program provider shapes
  cases checked with
  | false => exact ⟨rfl, rfl⟩
  | true =>
    cases emit with
    | model => exact ⟨rfl, rfl⟩
    | lir | json | dot | fingerprint => exact hsame

theorem exists_body {program : Program} {provider : Option Provider} {shapes : List Shape}
    (hok : ((start program provider).run .inferShapes shapes).failed = none) :
    ∃ b, ((start program provider).run .inferShapes shapes).compilation.body = some b := by
  have hinferred := inferred_run program provider shapes
  generalize (start program provider).run .inferShapes shapes = r at hok hinferred ⊢
  cases hinferred with
  | unbuilt c herror => cases hok
  | stopped c d hmodel hseverity hcode => cases hok
  | finished c b hmodel hbody hcoherent hchecked => exact ⟨b, hbody⟩

theorem exists_output_of_body {c : Compilation} {b : Body} {emit : Emit} (hb : c.body = some b)
    (hemit : emit ≠ .model) : ∃ text, c.output emit = .ok text := by
  cases emit with
  | model => exact absurd rfl hemit
  | lir | json | dot | fingerprint => simp [output, hb]

/-- A run that goes through has made what the text is taken from. -/
theorem exists_output {program : Program} {provider : Option Provider} {shapes : List Shape}
    {emit : Emit} {checked : Bool}
    (hok : ((start program provider).run (emit.terminal checked) shapes).failed = none) :
    ∃ text,
      ((start program provider).run (emit.terminal checked) shapes).compilation.output emit =
        .ok text := by
  obtain ⟨hfailed, hcompilation⟩ := run_terminal program provider shapes emit checked
  rw [hfailed] at hok
  rw [hcompilation]
  cases emit with
  | model =>
    refine ⟨program.model.model.render, ?_⟩
    show ((start program provider).run .buildModel shapes).compilation.output .model = _
    rw [run, Pass.required_buildModel, runPasses_modelled (clean_of_run hok)]
    rfl
  | lir | json | dot | fingerprint =>
    obtain ⟨b, hb⟩ := exists_body hok
    exact exists_output_of_body hb (by decide)

/-! ## What no run reports -/

/-- No problem with a program is reported as a defect of the compiler. -/
theorem code_model {p : Program} {d : Diagnostic} (hd : d ∈ p.model.diagnostics) :
    d.code ≠ some .loweringFailed ∧ d.code ≠ some .unsoundBody := by
  obtain ⟨problem, -, rfl⟩ := List.mem_map.mp hd
  cases problem <;> simp [Problem.diagnostic, Diagnostic.error, Diagnostic.warning]

/-- The reports of single passes, in a run of all of them. -/
theorem log_run_validate {program : Program} {provider : Option Provider} {shapes : List Shape}
    {pass : Pass} {ds : List Diagnostic}
    (h : (pass, ds) ∈ ((start program provider).run .validate shapes).log) :
    (pass = .lower ∨ pass = .validate → ds = []) ∧
      ∀ d ∈ ds, d.code ≠ some .loweringFailed ∧ d.code ≠ some .unsoundBody := by
  rw [run_validate] at h
  have hinferred := inferred_run program provider shapes
  generalize (start program provider).run .inferShapes shapes = r at h hinferred
  have hmodel : ∀ d ∈ program.model.diagnostics,
      d.code ≠ some .loweringFailed ∧ d.code ≠ some .unsoundBody := fun d => code_model
  cases hinferred with
  | unbuilt c herror =>
    obtain ⟨rfl, rfl⟩ : pass = .buildModel ∧ ds = program.model.diagnostics := by simpa using h
    exact ⟨by simp, hmodel⟩
  | stopped c d hok hseverity hcode =>
    have hcases : (pass = .buildModel ∧ ds = program.model.diagnostics) ∨
        (pass = .lower ∧ ds = []) ∨ pass = .inferShapes ∧ ds = [d] := by simpa using h
    rcases hcases with ⟨rfl, rfl⟩ | ⟨rfl, rfl⟩ | ⟨rfl, rfl⟩
    · exact ⟨by simp, hmodel⟩
    · exact ⟨fun _ => rfl, by simp⟩
    · refine ⟨by simp, fun d' hd' => ?_⟩
      obtain rfl := List.mem_singleton.mp hd'
      rcases hcode with hcode | hcode <;> rw [hcode] <;> exact ⟨by decide, by decide⟩
  | finished c b hok hbody hcoherent hchecked =>
    have hcases : (pass = .buildModel ∧ ds = program.model.diagnostics) ∨
        (pass = .lower ∧ ds = []) ∨ (pass = .inferShapes ∧ ds = []) ∨
          pass = .validate ∧ ds = [] := by simpa using h
    rcases hcases with ⟨rfl, rfl⟩ | ⟨rfl, rfl⟩ | ⟨rfl, rfl⟩ | ⟨rfl, rfl⟩
    · exact ⟨by simp, hmodel⟩
    · exact ⟨fun _ => rfl, by simp⟩
    · exact ⟨fun _ => rfl, by simp⟩
    · exact ⟨fun _ => rfl, by simp⟩

/-- Lowering follows a model without errors, and reports nothing. -/
theorem lower_mem_log {program : Program} {terminal : Pass} (provider : Option Provider)
    (shapes : List Shape) (hterminal : terminal ≠ .buildModel)
    (hok : anyError program.model.diagnostics = false) :
    (.lower, []) ∈ ((start program provider).run terminal shapes).log := by
  obtain ⟨later, hrequired⟩ := Pass.required_of_ne hterminal
  obtain ⟨b, -, hrun⟩ := runPasses_rebuilt (c := start program provider) hok shapes later
  rw [run, hrequired, hrun]
  exact List.mem_cons_of_mem _ List.mem_cons_self

/-- The check follows an inference without errors, and reports nothing. -/
theorem validate_mem_log {program : Program} {provider : Option Provider} {shapes : List Shape}
    {ds : List Diagnostic}
    (hds : (.inferShapes, ds) ∈ ((start program provider).run .validate shapes).log)
    (hok : anyError ds = false) :
    (.validate, []) ∈ ((start program provider).run .validate shapes).log := by
  rw [run_validate] at hds ⊢
  have hinferred := inferred_run program provider shapes
  generalize (start program provider).run .inferShapes shapes = r at hds hinferred ⊢
  cases hinferred with
  | unbuilt c herror => simp at hds
  | stopped c d hmodel hseverity hcode =>
    obtain rfl : ds = [d] := by simpa using hds
    simp [anyError, hseverity] at hok
  | finished c b hmodel hbody hcoherent hchecked => simp

/-- Lowering and the check never fail, so none of their codes is ever reported; and for every text
that is made from a body, a compilation with the check and one without it come to the same. -/
theorem validation_never_fails (program : Program) (provider : Option Provider)
    (shapes : List Shape) :
    (∀ terminal : Pass, terminal ≠ .buildModel → anyError program.model.diagnostics = false →
      (.lower, []) ∈ ((start program provider).run terminal shapes).log) ∧
    (∀ ds, (.inferShapes, ds) ∈ ((start program provider).run .validate shapes).log →
      anyError ds = false →
        (.validate, []) ∈ ((start program provider).run .validate shapes).log) ∧
    (∀ terminal pass ds, (pass, ds) ∈ ((start program provider).run terminal shapes).log →
      pass = .lower ∨ pass = .validate → ds = []) ∧
    (∀ terminal d, d ∈ ((start program provider).run terminal shapes).compilation.diagnostics →
      d.code ≠ some .loweringFailed ∧ d.code ≠ some .unsoundBody) ∧
    ∀ emit : Emit, emit ≠ .model →
      let checked := (start program provider).run (emit.terminal true) shapes
      let unchecked := (start program provider).run (emit.terminal false) shapes
      checked.failed = unchecked.failed ∧ checked.compilation = unchecked.compilation ∧
        checked.compilation.output emit = unchecked.compilation.output emit := by
  refine ⟨fun terminal hterminal hok => lower_mem_log provider shapes hterminal hok,
    fun ds hds hok => validate_mem_log hds hok, fun terminal pass ds h => ?_,
    fun terminal d hd => ?_, fun emit hemit => ?_⟩
  · exact (log_run_validate ((isPrefix_log_run _ terminal shapes).subset h)).1
  · rw [run, diagnostics_runPasses, ← run] at hd
    obtain ⟨⟨pass, ds⟩, hlog, hds⟩ := List.mem_flatMap.mp hd
    exact (log_run_validate ((isPrefix_log_run _ terminal shapes).subset hlog)).2 d hds
  · have hchecked : emit.terminal true = .validate := by
      cases emit <;> first | rfl | exact absurd rfl hemit
    have hunchecked : emit.terminal false = .inferShapes := by
      cases emit <;> first | rfl | exact absurd rfl hemit
    intro checked unchecked
    have hsame : checked = match unchecked.failed with
        | some _ => unchecked
        | none => { unchecked with log := unchecked.log ++ [(.validate, [])] } := by
      show (start program provider).run (emit.terminal true) shapes = _
      rw [hchecked, run_validate, ← hunchecked]
    have hparts : checked.failed = unchecked.failed ∧
        checked.compilation = unchecked.compilation := by
      rw [hsame]
      split <;> exact ⟨rfl, rfl⟩
    exact ⟨hparts.1, hparts.2, by rw [hparts.2]⟩

end TensorIR.Compilation
