import TensorIR.Inference.Custom
import TensorIR.Proofs.Pipeline.Validation

/-!
# Running a compilation again

A compilation may be run up to one pass and then, from where it was left, up to a later one. The
second run starts over: it builds and lowers the model again, and what it makes takes the place of
what the first run made. Two things are not as they were at the beginning. The provider went to the
body that was lowered first, so it is missing if the first run got that far. And shapes that reached
the results in the first run stay unless the second run finds others.

So the second run is a run from the beginning with what is left of the provider (`over_rerun`).
From the body on, both go through the same passes with the same data, and only the result shapes
have to be told apart (`Over`).
-/

set_option autoImplicit false

namespace TensorIR.Compilation

open Diagnostic (anyError)

variable {c d : Compilation} {shapes : List Shape} {program : Program}
  {provider : Option Provider}

/-! ## What a run keeps -/

theorem runPasses_keeps {motive : Compilation → Prop}
    (hpass : ∀ c pass, motive c → motive (c.runPass shapes pass).2)
    (hcollect : ∀ c ds, motive c → motive (c.collect ds)) (passes : List Pass)
    (h : motive c) : motive (runPasses shapes c passes).compilation := by
  induction passes generalizing c with
  | nil => exact h
  | cons pass passes ih =>
    have hnext := hcollect _ (c.runPass shapes pass).1 (hpass c pass h)
    cases herror : anyError (c.runPass shapes pass).1 with
    | true =>
      rw [runPasses_of_error _ rfl herror]
      exact hnext
    | false =>
      rw [runPasses_of_ok _ rfl herror]
      exact ih hnext

theorem program_runPass (c : Compilation) (shapes : List Shape) (pass : Pass) :
    (c.runPass shapes pass).2.program = c.program := by
  cases pass with
  | buildModel => rfl
  | validate => rfl
  | lower =>
    show (c.lower).2.program = _
    simp only [lower]
    split <;> rfl
  | inferShapes =>
    show (c.inferShapes shapes).2.program = _
    simp only [inferShapes]
    split
    · rfl
    · split <;> rfl

theorem provider_runPass (h : c.provider = none) (shapes : List Shape) (pass : Pass) :
    (c.runPass shapes pass).2.provider = none := by
  cases pass with
  | buildModel => exact h
  | validate => exact h
  | lower =>
    show (c.lower).2.provider = _
    simp only [lower]
    split <;> rfl
  | inferShapes =>
    show (c.inferShapes shapes).2.provider = _
    simp only [inferShapes]
    split
    · exact h
    · split <;> exact h

/-- A run keeps the program, and the provider only if it does not lower. -/
theorem kept_by_run {first : Pass}
    (hok : ((start program provider).run first shapes).failed = none) :
    ((start program provider).run first shapes).compilation.program = program ∧
      ((start program provider).run first shapes).compilation.provider =
        if first = .buildModel then provider else none := by
  have hclean := clean_of_run hok
  by_cases hfirst : first = .buildModel
  · rw [hfirst, run, Pass.required_buildModel, runPasses_modelled hclean]
    exact ⟨rfl, rfl⟩
  · obtain ⟨later, hrequired⟩ := Pass.required_of_ne hfirst
    obtain ⟨b, -, hrun⟩ := runPasses_rebuilt (c := start program provider) hclean shapes later
    rw [run, hrequired, hrun, if_neg hfirst]
    exact runPasses_keeps (motive := fun c => c.program = program ∧ c.provider = none)
      (fun c pass h => ⟨(program_runPass c shapes pass).trans h.1, provider_runPass h.2 shapes pass⟩)
      (fun c ds h => h) later ⟨rfl, rfl⟩

/-! ## Runs over what an earlier run has left -/

/-- The first compilation is the second one over result shapes that were there earlier. -/
structure Over (earlier : Option (List Shape)) (c d : Compilation) : Prop where
  program : c.program = d.program
  provider : c.provider = d.provider
  model : c.model = d.model
  body : c.body = d.body
  resultShapes : c.resultShapes = d.resultShapes.or earlier

section Over

variable {earlier : Option (List Shape)}

theorem Over.collect (h : Over earlier c d) (ds : List Diagnostic) :
    Over earlier (c.collect ds) (d.collect ds) :=
  ⟨h.program, h.provider, h.model, h.body, h.resultShapes⟩

/-- Passes do not look at result shapes, and replace them by what they find. -/
theorem Over.runPass (h : Over earlier c d) (shapes : List Shape) (pass : Pass) :
    (c.runPass shapes pass).1 = (d.runPass shapes pass).1 ∧
      Over earlier (c.runPass shapes pass).2 (d.runPass shapes pass).2 := by
  obtain ⟨hprogram, hprovider, hmodel, hbody, hshapes⟩ := h
  cases pass with
  | buildModel =>
    simp only [Compilation.runPass, buildModel, hprogram, true_and]
    exact ⟨rfl, hprovider, rfl, hbody, hshapes⟩
  | lower =>
    simp only [Compilation.runPass, lower, hprogram, hprovider, hmodel, true_and]
    split
    · exact ⟨rfl, rfl, rfl, rfl, hshapes⟩
    · exact ⟨rfl, rfl, rfl, hbody, hshapes⟩
  | inferShapes =>
    simp only [Compilation.runPass, inferShapes, hprogram, hbody]
    split
    next => exact ⟨rfl, hprogram, hprovider, hmodel, hbody, hshapes⟩
    next b hb =>
      refine ⟨rfl, ?_⟩
      split
      · exact ⟨rfl, hprovider, hmodel, rfl, rfl⟩
      · exact ⟨rfl, hprovider, hmodel, rfl, hshapes⟩
  | validate =>
    simp only [Compilation.runPass, validate, hprogram, hbody, true_and]
    exact ⟨hprogram, hprovider, hmodel, hbody, hshapes⟩

theorem Over.runPasses (h : Over earlier c d) (shapes : List Shape) (passes : List Pass) :
    (runPasses shapes c passes).failed = (runPasses shapes d passes).failed ∧
      (runPasses shapes c passes).log = (runPasses shapes d passes).log ∧
      Over earlier (runPasses shapes c passes).compilation
        (runPasses shapes d passes).compilation := by
  induction passes generalizing c d with
  | nil => exact ⟨rfl, rfl, h⟩
  | cons pass passes ih =>
    obtain ⟨hreports, hover⟩ := h.runPass shapes pass
    have hnext := hover.collect (d.runPass shapes pass).1
    have hrun : c.runPass shapes pass = ((d.runPass shapes pass).1, (c.runPass shapes pass).2) :=
      Prod.ext hreports rfl
    cases herror : anyError (d.runPass shapes pass).1 with
    | true =>
      rw [runPasses_of_error _ hrun herror, runPasses_of_error _ rfl herror]
      exact ⟨rfl, rfl, hnext⟩
    | false =>
      rw [runPasses_of_ok _ hrun herror, runPasses_of_ok _ rfl herror]
      obtain ⟨hfailed, hlog, hrest⟩ := ih hnext
      exact ⟨hfailed, congrArg (List.cons _) hlog, hrest⟩

end Over

theorem Over.logged {r r' : Run} {earlier : Option (List Shape)}
    (h : r.failed = r'.failed ∧ r.log = r'.log ∧ Over earlier r.compilation r'.compilation)
    (pass : Pass) (ds : List Diagnostic) :
    (r.logged pass ds).failed = (r'.logged pass ds).failed ∧
      (r.logged pass ds).log = (r'.logged pass ds).log ∧
      Over earlier (r.logged pass ds).compilation (r'.logged pass ds).compilation :=
  ⟨h.1, congrArg (List.cons (pass, ds)) h.2.1, h.2.2⟩

/-- What a compilation holds already makes no difference to a run but for the result shapes. -/
theorem over_run (hprogram : c.program = d.program) (hprovider : c.provider = d.provider)
    (hshapes : d.resultShapes = none) (hclean : anyError d.program.model.diagnostics = false)
    (shapes : List Shape) {terminal : Pass} (hbody : terminal = .buildModel → c.body = d.body) :
    (c.run terminal shapes).failed = (d.run terminal shapes).failed ∧
      (c.run terminal shapes).log = (d.run terminal shapes).log ∧
      Over c.resultShapes (c.run terminal shapes).compilation
        (d.run terminal shapes).compilation := by
  have hclean' : anyError c.program.model.diagnostics = false := by rw [hprogram, hclean]
  have hnone : c.resultShapes = d.resultShapes.or c.resultShapes := by rw [hshapes, Option.none_or]
  by_cases hterminal : terminal = .buildModel
  · have hover : Over c.resultShapes c.modelled d.modelled :=
      ⟨hprogram, hprovider, by rw [modelled, modelled, hprogram], hbody hterminal, hnone⟩
    rw [hterminal, run, run, Pass.required_buildModel, runPasses_modelled hclean',
      runPasses_modelled hclean, hprogram]
    exact Over.logged (hover.runPasses shapes []) _ _
  · obtain ⟨later, hrequired⟩ := Pass.required_of_ne hterminal
    obtain ⟨b, hb, hrun⟩ := runPasses_rebuilt hclean' shapes later
    obtain ⟨b', hb', hrun'⟩ := runPasses_rebuilt hclean shapes later
    -- The same model, lowered with the same provider.
    obtain rfl : b = b' := by
      rw [hprogram, hprovider, hb'] at hb
      exact (Except.ok.inj hb).symm
    have hover : Over c.resultShapes (c.rebuilt b) (d.rebuilt b) :=
      ⟨hprogram, rfl, by rw [rebuilt, rebuilt, hprogram], rfl, hnone⟩
    rw [run, run, hrequired, hrun, hrun', hprogram]
    exact Over.logged (Over.logged (hover.runPasses shapes later) _ _) _ _

/-! ## Two stages -/

/-- A second run is a run from the beginning with what is left of the provider. -/
theorem over_rerun {first second : Pass} (hstage : first ∈ second.required)
    (hok : ((start program provider).run first shapes).failed = none) :
    let staged := ((start program provider).run first shapes).compilation
    let fresh := (start program (if first = .buildModel then provider else none)).run second shapes
    (staged.run second shapes).failed = fresh.failed ∧
      (staged.run second shapes).log = fresh.log ∧
      Over staged.resultShapes (staged.run second shapes).compilation fresh.compilation := by
  have hclean := clean_of_run hok
  obtain ⟨hprogram, hprovider⟩ := kept_by_run hok
  refine over_run hprogram hprovider rfl hclean shapes fun hsecond => ?_
  -- Then the first run was the same one, and there is no body yet.
  obtain rfl : first = .buildModel := by
    rw [hsecond, Pass.required_buildModel] at hstage
    exact List.mem_singleton.mp hstage
  rw [run, Pass.required_buildModel, runPasses_modelled hclean]
  rfl

theorem resultShapes_run {first : Pass} (hfirst : first = .buildModel ∨ first = .lower)
    (hclean : anyError program.model.diagnostics = false) :
    ((start program provider).run first shapes).compilation.resultShapes = none := by
  rcases hfirst with rfl | rfl
  · rw [run, Pass.required_buildModel, runPasses_modelled hclean]
    rfl
  · have hrequired : Pass.lower.required = [.buildModel, .lower] := Pass.required_eq _
    obtain ⟨b, -, hrun⟩ := runPasses_rebuilt (c := start program provider) hclean shapes []
    rw [run, hrequired, hrun]
    rfl

/-- A later pass finds at least the shapes that an earlier one has found. -/
theorem resultShapes_of_stages {first second : Pass} (hstage : first ∈ second.required)
    (hclean : anyError program.model.diagnostics = false) :
    ((start program provider).run second shapes).compilation.resultShapes.or
        ((start program provider).run first shapes).compilation.resultShapes =
      ((start program provider).run second shapes).compilation.resultShapes := by
  rw [second.required_eq] at hstage
  cases first with
  | buildModel => rw [resultShapes_run (.inl rfl) hclean, Option.or_none]
  | lower => rw [resultShapes_run (.inr rfl) hclean, Option.or_none]
  | inferShapes =>
    -- Checking the body finds nothing, so a run with the check has found the same shapes.
    cases second with
    | buildModel | lower => simp [Pass.depth] at hstage
    | inferShapes => exact Option.or_self
    | validate =>
      rw [(run_validate_same program provider shapes).2]
      exact Option.or_self
  | validate =>
    cases second with
    | buildModel | lower | inferShapes => simp [Pass.depth] at hstage
    | validate => exact Option.or_self

/-- A compilation that was run up to a pass is run up to a later one. This comes to the same as
running up to the later pass at once, except that the provider is missing if the first run has
lowered the model, and that result shapes of the first run stay where the second finds none. Without
a provider, or if the first run was not to lower, there is no difference at all. -/
theorem rerun_exact {first second : Pass} (hstage : first ∈ second.required)
    (hok : ((start program provider).run first shapes).failed = none) :
    let staged := ((start program provider).run first shapes).compilation
    let again := staged.run second shapes
    let fresh := (start program (if first = .buildModel then provider else none)).run second shapes
    again.failed = fresh.failed ∧ again.log = fresh.log ∧
      again.compilation.model = fresh.compilation.model ∧
      again.compilation.body = fresh.compilation.body ∧
      again.compilation.resultShapes = fresh.compilation.resultShapes.or staged.resultShapes ∧
      (provider = none ∨ first = .buildModel →
        fresh = (start program provider).run second shapes ∧
          again.compilation.resultShapes = fresh.compilation.resultShapes) := by
  intro staged again fresh
  obtain ⟨hfailed, hlog, hover⟩ := over_rerun hstage hok
  refine ⟨hfailed, hlog, hover.model, hover.body, hover.resultShapes, fun hsame => ?_⟩
  have hprovider : (if first = .buildModel then provider else none) = provider := by
    rcases hsame with rfl | rfl
    · exact ite_self _
    · exact if_pos rfl
  have hfresh : fresh = (start program provider).run second shapes := by
    show (start program (if first = .buildModel then provider else none)).run second shapes = _
    rw [hprovider]
  have hfound : fresh.compilation.resultShapes.or staged.resultShapes =
      fresh.compilation.resultShapes := by
    rw [hfresh]
    exact resultShapes_of_stages hstage (clean_of_run hok)
  exact ⟨hfresh, hover.resultShapes.trans hfound⟩

/-! ## A provider that is missed -/

/-- A program with an operation that the catalogue does not know. -/
def halvingText : List Char :=
  ("x = Parameter[shape=[8]]()\n" ++ "h = Custom[name=Halve, inputs=1, outputs=1](x)\n" ++
    "Result(h)\n").toList

/-- What the text says. -/
def halving : Program where
  statements :=
    [⟨some ⟨"x", ⟨0, 1⟩⟩, ⟨"Parameter", ⟨4, 13⟩⟩,
        [⟨⟨"shape", ⟨14, 19⟩⟩, .dims [.fixed 8 ⟨21, 22⟩] ⟨20, 23⟩⟩], [], ⟨0, 26⟩⟩,
      ⟨some ⟨"h", ⟨27, 28⟩⟩, ⟨"Custom", ⟨31, 37⟩⟩,
        [⟨⟨"name", ⟨38, 42⟩⟩, .ident ⟨"Halve", ⟨43, 48⟩⟩⟩,
          ⟨⟨"inputs", ⟨50, 56⟩⟩, .int 1 ⟨57, 58⟩⟩,
          ⟨⟨"outputs", ⟨60, 67⟩⟩, .int 1 ⟨68, 69⟩⟩],
        [⟨⟨"x", ⟨71, 72⟩⟩, 0⟩], ⟨27, 73⟩⟩,
      ⟨none, ⟨"Result", ⟨74, 80⟩⟩, [], [⟨⟨"h", ⟨81, 82⟩⟩, 0⟩], ⟨74, 83⟩⟩]
  span := ⟨0, 84⟩

/-- A provider that knows the operation. -/
def halve : Provider := CustomRule.provider [("Halve", .halve 1)]

theorem clean_halving : anyError halving.model.diagnostics = false := by decide +kernel

theorem run_lower (hclean : anyError program.model.diagnostics = false) :
    ((start program provider).run .lower shapes).failed = none := by
  have hrequired : Pass.lower.required = [.buildModel, .lower] := Pass.required_eq _
  obtain ⟨b, -, hrun⟩ := runPasses_rebuilt (c := start program provider) hclean shapes []
  rw [run, hrequired, hrun]
  rfl

theorem run_halving_none : ((start halving none).run .inferShapes []).failed = some .inferShapes := by
  obtain ⟨b, hb, -⟩ := Body.mirrors_ofModel halving.wellFormed_model none
  have herr : (b.inferShapes []).1 = .error (.shapeInference "h" (.unregistered "Halve")) := by
    have hlowered : (Body.ofModel halving.model.model none).map (fun b => (b.inferShapes []).1) =
        .ok (.error (.shapeInference "h" (.unregistered "Halve"))) := by decide +kernel
    rw [hb] at hlowered
    exact Except.ok.inj hlowered
  exact (run_of_inferShapes_error clean_halving hb herr (.inl rfl)).1

/-- After lowering the provider is gone. -/
theorem rerun_exact_halving :
    Pass.lower ∈ Pass.inferShapes.required ∧
    ((start halving (some halve)).run .lower []).failed = none ∧
    (((start halving (some halve)).run .lower []).compilation.run .inferShapes []).failed =
      some .inferShapes := by
  have hstage : Pass.lower ∈ Pass.inferShapes.required := by
    rw [Pass.required_inferShapes]
    decide
  have hok : ((start halving (some halve)).run .lower []).failed = none := run_lower clean_halving
  exact ⟨hstage, hok, (rerun_exact hstage hok).1.trans run_halving_none⟩

/-- A compilation that is lowered and then run up to shape inference fails where the same
compilation, run up to shape inference at once, goes through. -/
theorem rerun_misses_provider :
    (parse halvingText).program = some halving ∧
    ((start halving (some halve)).run .lower []).failed = none ∧
    (((start halving (some halve)).run .lower []).compilation.run .inferShapes []).failed =
      some .inferShapes ∧
    ((start halving (some halve)).run .inferShapes []).failed = none ∧
    ((start halving (some halve)).run .inferShapes []).compilation.resultShapes =
      some [⟨[.static 4]⟩] := by
  have hstage : Pass.lower ∈ Pass.inferShapes.required := by
    rw [Pass.required_inferShapes]
    decide
  have hstaged : ((start halving (some halve)).run .lower []).failed = none :=
    run_lower clean_halving
  obtain ⟨b, hb, -⟩ := Body.mirrors_ofModel halving.wellFormed_model (some halve)
  have hok : (b.inferShapes []).1 = .ok [⟨[.static 4]⟩] := by
    have hlowered : (Body.ofModel halving.model.model (some halve)).map
        (fun b => (b.inferShapes []).1) = .ok (.ok [⟨[.static 4]⟩]) := by decide +kernel
    rw [hb] at hlowered
    exact Except.ok.inj hlowered
  obtain ⟨hfresh, hshapes, -⟩ := run_of_inferShapes_ok clean_halving hb hok
  exact ⟨by decide +kernel, hstaged, (over_rerun hstage hstaged).1.trans run_halving_none, hfresh,
    hshapes⟩

end TensorIR.Compilation
