import TensorIR.Proofs.Body.History
import TensorIR.Proofs.Body.Locality
import TensorIR.Proofs.Body.Steady
import TensorIR.Proofs.Body.Stopping

/-!
# Inference over and over

An inference that goes through leaves a body that the same inference does not change any more, nor
does one that leaves the parameters as they are (`Coherent.inferShapes_again`). Nothing is left to
do, because every expression is up to date and the parameters have their shapes.

What it leaves behind is also the same whatever the body had been described with before, as far as
shapes go and provided that the parameters are given theirs (`Coherent.infersLike`). Two bodies
that differ in descriptors only are inferred side by side. They are one body inferred twice, which
has been compared already, only that here the two inferences are given the same shapes and do not
start from the same descriptors; where they start is never looked at.
-/

set_option autoImplicit false

namespace TensorIR.Body

variable {b b₁ b₂ c : Body} {shapes out : List Shape}

/-! ## Once more -/

/-- A pass over everything but the parameters has nothing left to do. -/
theorem Coherent.pass_again (h : Coherent b) (hok : b.inferShapes shapes = (.ok out, c)) :
    updateAll c (c.order.filter (· ∉ c.parameterIds)) = (.ok (), c) := by
  obtain ⟨-, fed, hstages⟩ := h.stages_of_ok hok
  have hparams : c.ByOrdinal .input c.parameterIds :=
    (h.retouched hstages.retouched).byOrdinal_boundaryIds .input
  refine updateAll_of_steady fun id hid => ?_
  obtain ⟨horder, hnot⟩ := List.mem_filter.mp hid
  refine h.steady_of_ok hok horder fun hparam => ?_
  exact of_decide_eq_true hnot ((hparams.isParameter_iff id).mp hparam)

/-- What an inference that goes through leaves behind stays as it is, whether the shapes are given
again or not. -/
theorem Coherent.inferShapes_again (h : Coherent b) (hok : b.inferShapes shapes = (.ok out, c)) :
    c.inferShapes shapes = (.ok out, c) ∧ c.inferShapes [] = (.ok out, c) := by
  obtain ⟨hfits, fed, hstages⟩ := h.stages_of_ok hok
  have hids : c.parameterIds = b.parameterIds := hstages.retouched.boundaryIds h .input
  have hpass := h.pass_again hok
  have hresults : c.resultShapes = .ok out := congrArg Prod.fst (hstages.answer.symm.trans hok)
  have hrun : ∀ given : List Shape, (given = [] ∨ given.length = c.parameterIds.length) →
      overrideShapes c (c.parameterIds.zip given) = (.ok (), c) →
        c.inferShapes given = (.ok out, c) := by
    intro given hlength hoverride
    rw [inferShapes_of_pass hlength hoverride hpass, ← hresults]
    rfl
  constructor
  · apply hrun shapes (hids ▸ hfits)
    rw [hids]
    exact hstages.overrideShapes_again
  · apply hrun [] (.inl rfl)
    rw [List.zip_nil_right]
    rfl

/-! ## From other descriptors -/

/-- Where the inference goes through in the first body, it does so in the second with the same
answer, and leaves the same shapes at all ports. -/
def InfersLike (b₁ b₂ : Body) (shapes : List Shape) : Prop :=
  ∀ out c₁, b₁.inferShapes shapes = (.ok out, c₁) →
    ∃ c₂, b₂.inferShapes shapes = (.ok out, c₂) ∧ SameShapes c₁ c₂

/-- If shapes are given, it does not matter which the parameters had before. -/
theorem Given.of_ne_nil {params : List ExprId} (h : Given b₁ c params shapes) (hne : shapes ≠ [])
    (b₂ : Body) : Given b₂ c params shapes where
  given := h.given
  kept hnone := absurd hnone hne

theorem Solved.of_ne_nil {params results : List ExprId}
    (h : Solved b₁ c params results shapes out) (hne : shapes ≠ []) (b₂ : Body) :
    Solved b₂ c params results shapes out :=
  { h with toGiven := h.toGiven.of_ne_nil hne b₂ }

section

variable {c₁ c₂ : Body} {params results : List ExprId} (h : Coherent b)
  (hparams : b.ByOrdinal .input params) (hr₁ : Retouched b c₁) (hr₂ : Retouched b c₂)
  (hsolved₁ : Solved b c₁ params results shapes out) (hlength : shapes.length = params.length)
include h hparams hr₁ hr₂ hsolved₁ hlength

/-- Two inferences over the same shapes that go through leave the same shapes and have the same
answer. -/
theorem Solved.sameShapes {out₂ : List Shape} (hsolved₂ : Solved b c₂ params results shapes out₂) :
    SameShapes c₁ c₂ ∧ out = out₂ := by
  have hsame : SameShapes c₂ c₁ := fun port =>
    hsolved₁.shapeAt_local h hparams hr₁ hr₂ hsolved₂ hlength (fun _ _ _ _ => rfl) port.direction
      port.index
  have hresults₂ : (results.map id).map (fun id => c₂.shapeAt ⟨id, .input, 0⟩) = out₂.map .ok := by
    rw [List.map_id]
    exact hsolved₂.results
  exact ⟨hsame.symm,
    out_eq_of_shapes hsolved₁.results hresults₂ fun id _ => hsame ⟨id, .input, 0⟩⟩

/-- Where one inference goes through, another over the same shapes does not stop. -/
theorem Solved.not_stoppedAt (hgiven₂ : Given b c₂ params shapes) {before : List ExprId}
    {p : ExprId} {err : IrError} : ¬ c₂.StoppedAt before p err := by
  have htwins := twins_of_given h hparams hr₁ hr₂ hsolved₁.toGiven hgiven₂ hlength
  have hsettled : c₁.SettledIn c₁.order := hsolved₁.settledIn hparams hr₁ htwins.wired
  refine htwins.not_stoppedAt hsettled fun q hq => ⟨q, rfl, ?_, fun _ _ _ _ => rfl⟩
  exact (hr₂.live_iff q).mp ((htwins.wired'.mem_order q).mp hq)

end

/-- Bodies that differ in what passes attach are inferred alike. -/
theorem Coherent.infersLike (h : Coherent b) (hr₁ : Retouched b b₁) (hr₂ : Retouched b b₂)
    (hne : shapes ≠ []) : InfersLike b₁ b₂ shapes := by
  intro out c₁ hok
  have h₁ : Coherent b₁ := h.retouched hr₁
  have hparams : b.ByOrdinal .input b.parameterIds := h.byOrdinal_boundaryIds .input
  have hparams₁ : b₁.ByOrdinal .input b.parameterIds := hr₁.byOrdinal_boundaryIds h .input
  have hparams₂ : b₂.ByOrdinal .input b.parameterIds := hr₂.byOrdinal_boundaryIds h .input
  have hresults₁ := hr₁.byOrdinal_boundaryIds h .output
  have hresults₂ := hr₂.byOrdinal_boundaryIds h .output
  have hlength : shapes.length = b.parameterIds.length := by
    have hids : b₁.parameterIds = b.parameterIds := hr₁.boundaryIds h .input
    rw [← hids]
    exact (h₁.stages_of_ok hok).1.resolve_left hne
  obtain ⟨hc₁, hsolved⟩ := h₁.solved_of_ok hparams₁ hresults₁ (.inr hlength)
    (congrArg Prod.fst hok)
  rw [hok] at hc₁ hsolved
  -- Both inferences are read as ones of the same body: where they start is never looked at.
  have hsolved₁ := hsolved.of_ne_nil hne b
  obtain ⟨c₂, hc₂, hcases⟩ := (h.retouched hr₂).outcome hparams₂ hresults₂ (.inr hlength)
  rcases hcases with ⟨err, -, hstopped⟩ | ⟨out₂, hok₂, hsolved₂⟩
  · obtain ⟨before, p, hat⟩ := hstopped.stoppedAt hparams₂ hc₂
    exact absurd hat (hsolved₁.not_stoppedAt h hparams (hr₁.trans hc₁) (hr₂.trans hc₂) hlength
      (hstopped.toGiven.of_ne_nil hne b))
  · obtain ⟨hsame, rfl⟩ := hsolved₁.sameShapes h hparams (hr₁.trans hc₁) (hr₂.trans hc₂) hlength
      (hsolved₂.of_ne_nil hne b)
    exact ⟨c₂, hok₂, hsame⟩

/-- In every body that can come about and with any provider of strategies, inference that goes
through is idempotent: over the same shapes or over none it goes through again with the same answer,
and the body stays as it is, every descriptor included. If shapes are given, it also forgets what
was there before. Which descriptors the ports had is of no consequence to the answer and to the
shapes that are left at all ports, so in particular which inferences came before, and how they
ended. -/
theorem inferShapes_idempotent (h : Reachable b) :
    (∀ shapes out c, b.inferShapes shapes = (.ok out, c) →
      c.inferShapes shapes = (.ok out, c) ∧ c.inferShapes [] = (.ok out, c)) ∧
    (∀ b₁ b₂ shapes, Retouched b b₁ → Retouched b b₂ → shapes ≠ [] → InfersLike b₁ b₂ shapes) ∧
    ∀ earlier₁ earlier₂ shapes, (∀ call ∈ earlier₁, Action.InfersShapes call) →
      (∀ call ∈ earlier₂, Action.InfersShapes call) → shapes ≠ [] →
        InfersLike (b.run earlier₁) (b.run earlier₂) shapes := by
  have hc := h.coherent
  refine ⟨fun shapes out c => hc.inferShapes_again, ?_, ?_⟩
  · intro b₁ b₂ shapes hr₁ hr₂ hne
    exact hc.infersLike hr₁ hr₂ hne
  · intro earlier₁ earlier₂ shapes hcalls₁ hcalls₂ hne
    exact hc.infersLike (retouched_run hcalls₁ b) (retouched_run hcalls₂ b) hne

/-- After an inference that has stopped half way, another one finds what it finds without it, and
then leaves everything as it is. -/
theorem inferShapes_idempotent_misfit :
    let stopping : List Shape := [⟨[.static 2]⟩, ⟨[.static 3]⟩, ⟨[.dynamic]⟩]
    let fitting : List Shape := [⟨[.static 4, .static 2]⟩, ⟨[.static 2]⟩, ⟨[]⟩]
    Reachable misfit ∧ (misfit.inferShapes stopping).1.toOption = none ∧
      (misfit.inferShapes fitting).1 = .ok [⟨[.static 4, .static 2]⟩] ∧
      (misfit.inferShapes fitting).2.inferShapes fitting = misfit.inferShapes fitting ∧
      (misfit.inferShapes fitting).2.inferShapes [] = misfit.inferShapes fitting ∧
      InfersLike misfit (misfit.run [.inferShapes stopping, .updateShapes ⟨3⟩]) fitting := by
  intro stopping fitting
  obtain ⟨hagain, -, hforgets⟩ := inferShapes_idempotent reachable_misfit
  have hfails : (misfit.inferShapes stopping).1.toOption = none := by
    simp only [inferShapes, parameterIds, resultShapes, boundary_eq_insertionSort]
    rfl
  have hout : (misfit.inferShapes fitting).1 = .ok [⟨[.static 4, .static 2]⟩] := by
    simp only [inferShapes, parameterIds, resultShapes, boundary_eq_insertionSort]
    rfl
  have hok : misfit.inferShapes fitting =
      (.ok [⟨[.static 4, .static 2]⟩], (misfit.inferShapes fitting).2) := Prod.ext hout rfl
  obtain ⟨hsame, hnone⟩ := hagain fitting _ _ hok
  refine ⟨reachable_misfit, hfails, hout, hsame.trans hok.symm, hnone.trans hok.symm, ?_⟩
  exact hforgets [] [.inferShapes stopping, .updateShapes ⟨3⟩] fitting (by simp)
    (by simp [Action.InfersShapes]) (by simp [fitting])

end TensorIR.Body
