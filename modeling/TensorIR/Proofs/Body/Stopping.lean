import TensorIR.Proofs.Body.Prefixes

/-!
# What a failed inference leaves behind

An inference that is given a wrong number of shapes changes nothing. One that fails at an expression
has changed some shapes already, and `Halted` says which: the parameters have the shapes that were
given, what runs before the expression is as an inference over that part alone leaves it, what runs
after it is untouched, and the expression itself has taken over the shapes of its operands, if it
has a strategy that could be asked, but not got new shapes for its outputs.

The pass is followed from its two ends. It comes to the expression through updates that succeed
(`updateAll_stops`), and by themselves these are a run over the first part of the body; and the
update that fails is looked at by itself.
-/

set_option autoImplicit false

namespace TensorIR.Body

variable {b b' fed m : Body} {params before after : List ExprId} {shapes : List Shape}
  {id : ExprId} {err : IrError}

/-- What an inference leaves behind that fails at an expression, between those that the schedule has
before it and after it. -/
structure Halted (b b' : Body) (params : List ExprId) (shapes : List Shape) (name : String)
    (cause : ShapeError) (before : List ExprId) (id : ExprId) (after : List ExprId) : Prop where
  schedule : b.order = before ++ id :: after
  notParam : id ∉ params
  /-- The parameters, wherever they are, have the shapes given to them. -/
  given : ∀ (i : Nat) (param : ExprId) (shape : Shape), params[i]? = some param →
    shapes[i]? = some shape → ∃ e e', b.expr param = .ok e ∧
      e.modifyDescriptor .output 0 (·.withShape shape) = .ok e' ∧ b'.expr param = .ok e'
  kept : shapes = [] → ∀ param ∈ params, b'.expr param = b.expr param
  /-- What runs before the expression is a body in its own right, once the rest is removed. -/
  part : Reachable (b.cutOff before.length) ∧ (b.cutOff before.length).order = before ∧
    ∀ other ∈ before, (b.cutOff before.length).expr other = b.expr other
  /-- It has been brought up to date as if there was nothing else. -/
  earlier : ∃ out c, (b.cutOff before.length).inferShapes (shapesFor before params shapes) =
    (.ok out, c) ∧ ∀ other ∈ before, b'.expr other = c.expr other
  /-- The expression has the shapes of its operands' producers, unless there was no strategy to
  ask, and its outputs are unchanged. -/
  failing : ∃ e operands e', b.expr id = .ok e ∧ b'.expr id = .ok e' ∧
    e.inputConnectors.map b'.carriedShape = operands.map .ok ∧
    e.attempt operands = .error cause ∧ e.node.name = name ∧ e.Declined operands e'
  /-- What runs after the expression is untouched, parameters aside. -/
  later : ∀ other ∈ after, other ∉ params → b'.expr other = b.expr other

theorem expr_congr (h : b'.exprs.get? id = b.exprs.get? id) : b'.expr id = b.expr id := by
  simp only [expr, h]

/-! ## The pass up to the failure -/

/-- A pass that fails over a selection of expressions fails at one of them, after updates of those
before it that succeed. -/
theorem updateAll_stops {keep : ExprId → Bool} {ids : List ExprId}
    (h : updateAll b (ids.filter keep) = (.error err, b')) :
    ∃ before id after m, ids = before ++ id :: after ∧ keep id = true ∧
      updateAll b (before.filter keep) = (.ok (), m) ∧ m.updateShapes id = (.error err, b') := by
  -- Along the schedule, so that the place of the failure is found there and not in the selection.
  induction ids generalizing b with
  | nil => cases h
  | cons first ids ih =>
    by_cases hkeep : keep first = true
    · rw [List.filter_cons_of_pos hkeep, updateAll] at h
      split at h
      next b₁ hstep =>
        cases h
        exact ⟨[], first, ids, b, rfl, hkeep, rfl, hstep⟩
      next b₁ hstep =>
        obtain ⟨before, id, after, m, rfl, hid, hran, hfailed⟩ := ih h
        refine ⟨first :: before, id, after, m, rfl, hid, ?_, hfailed⟩
        rw [List.filter_cons_of_pos hkeep, updateAll, hstep]
        exact hran
    · rw [List.filter_cons_of_neg hkeep] at h
      obtain ⟨before, id, after, m, rfl, hid, hran, hfailed⟩ := ih h
      refine ⟨first :: before, id, after, m, rfl, hid, ?_, hfailed⟩
      rw [List.filter_cons_of_neg hkeep]
      exact hran

/-- An inference that fails at an expression, with the body that it had come to before. -/
structure Interrupted (b fed m b' : Body) (shapes : List Shape) (err : IrError)
    (before : List ExprId) (id : ExprId) (after : List ExprId) : Prop where
  stages : Stages b shapes fed (.error err) b'
  schedule : b.order = before ++ id :: after
  notParam : id ∉ b.parameterIds
  ran : updateAll fed (before.filter (· ∉ b.parameterIds)) = (.ok (), m)
  failed : m.updateShapes id = (.error err, b')

theorem Coherent.interrupted (h : Coherent b)
    (hfits : shapes = [] ∨ shapes.length = b.parameterIds.length)
    (herr : (b.inferShapes shapes).1 = .error err) :
    ∃ fed m before id after,
      Interrupted b fed m (b.inferShapes shapes).2 shapes err before id after := by
  obtain ⟨fed, outcome, b', hstages⟩ := h.stages hfits
  rw [hstages.answer] at herr ⊢
  cases outcome with
  | ok =>
    obtain ⟨out, hout, -⟩ := (h.retouched hstages.retouched).resultShapes_ok
    cases hout.symm.trans herr
  | error found =>
    obtain rfl := Except.error.inj herr
    obtain ⟨before, id, after, m, horder, hid, hran, hfailed⟩ := updateAll_stops hstages.pass
    exact ⟨fed, m, before, id, after, hstages, horder, of_decide_eq_true hid, hran, hfailed⟩

namespace Interrupted

variable (h : Interrupted b fed m b' shapes err before id after)
include h

theorem get?_of_ne {other : ExprId} (hne : other ≠ id) :
    b'.exprs.get? other = m.exprs.get? other := by
  have hstep : (m.updateShapes id).2.exprs.get? other = m.exprs.get? other :=
    exprs_updateShapes_of_ne hne
  rwa [h.failed] at hstep

theorem get?_fed {other : ExprId} (hother : other ∉ before.filter (· ∉ b.parameterIds)) :
    m.exprs.get? other = fed.exprs.get? other := by
  have hpass : (updateAll fed (before.filter (· ∉ b.parameterIds))).2.exprs.get? other =
      fed.exprs.get? other := exprs_updateAll_of_notMem hother
  rwa [h.ran] at hpass

theorem nodup (hb : Wired b) :
    id ∉ before ∧ id ∉ after ∧ ∀ other ∈ after, other ∉ before := by
  have hnodup := hb.nodup
  rw [h.schedule, List.nodup_append, List.nodup_cons] at hnodup
  obtain ⟨-, ⟨hafter, -⟩, hdisjoint⟩ := hnodup
  refine ⟨fun hid => ?_, hafter, fun other hother hmem => ?_⟩
  · exact hdisjoint id hid id (List.mem_cons_self ..) rfl
  · exact hdisjoint other hmem other (List.mem_cons_of_mem _ hother) rfl

/-- The pass does not come to what runs after the failure. -/
theorem get?_later (hb : Wired b) {other : ExprId} (hother : other ∈ after)
    (hparam : other ∉ b.parameterIds) : b'.exprs.get? other = b.exprs.get? other := by
  obtain ⟨-, hid, hdisjoint⟩ := h.nodup hb
  have hnot : other ∉ before.filter (· ∉ b.parameterIds) := fun hmem =>
    hdisjoint other hother (List.mem_filter.mp hmem).1
  exact (h.get?_of_ne fun heq => hid (heq ▸ hother)).trans
    ((h.get?_fed hnot).trans (h.stages.get?_given hparam))

theorem retouched : Retouched b m :=
  h.stages.retouched_fed.trans (retouched_of_updateAll h.ran)

/-- The update that fails finds the expression as it was at the start. -/
theorem failing (hb : Wired b) : ∃ e operands cause e', b.exprs.get? id = some e ∧
    b'.exprs.get? id = some e' ∧ e.inputConnectors.map b'.carriedShape = operands.map .ok ∧
    e.attempt operands = .error cause ∧ err = .shapeInference e.node.name cause ∧
    e.Declined operands e' := by
  have hm : Wired m := hb.retouched h.retouched
  have hsame : m.exprs.get? id = b.exprs.get? id :=
    (h.get?_fed fun hmem => (h.nodup hb).1 (List.mem_filter.mp hmem).1).trans
      (h.stages.get?_given h.notParam)
  obtain ⟨e, he⟩ : ∃ e, b.exprs.get? id = some e := (hb.mem_order id).mp (by simp [h.schedule])
  obtain ⟨operands, hoperands, hlength⟩ := hm.exists_carried (hsame.trans he)
  have hfailed := h.failed
  rw [updateShapes_of_carried (hsame.trans he) hoperands] at hfailed
  rcases Expression.updateShapes_cases hlength with
    ⟨cause, e', hattempt, herr, hdeclined⟩ | ⟨out, e', -, hok, -⟩
  · rw [herr] at hfailed
    obtain ⟨hcause, rfl⟩ := Prod.mk.inj hfailed
    exact ⟨e, operands, cause, e', he, OrderedMap.get?_insert_self ..,
      (hm.carried_insert (hsame.trans he) e').trans hoperands, hattempt,
      (Except.error.inj hcause).symm, hdeclined⟩
  · rw [hok] at hfailed
    cases hfailed

theorem halted (hb : Reachable b)
    (hfits : shapes = [] ∨ shapes.length = b.parameterIds.length) :
    ∃ name cause, err = .shapeInference name cause ∧
      Halted b b' b.parameterIds shapes name cause before id after := by
  have hc := hb.coherent
  obtain ⟨e, operands, cause, e', he, he', hoperands, hattempt, herr, hdeclined⟩ :=
    h.failing hc.toWired
  obtain ⟨hcut, hcutorder, hagree⟩ := hc.cutOff h.schedule
  obtain ⟨out, c, hinfer, hagree'⟩ := hc.inferShapes_part hcut hagree h.schedule hcutorder hfits
    h.stages.given h.stages.overridden h.ran
  refine ⟨e.node.name, cause, herr,
    { schedule := h.schedule
      notParam := h.notParam
      given := fun i param shape hparam hshape => ?_
      kept := fun hnone param hparam => ?_
      part := ⟨hb.cutOff before.length, hcutorder, fun other hother => ?_⟩
      earlier := ⟨out, c, hinfer, fun other hother => ?_⟩
      failing := ⟨e, operands, e', expr_eq_ok_iff.mpr he, expr_eq_ok_iff.mpr he', hoperands,
        hattempt, rfl, hdeclined⟩
      later := fun other hother hparam => expr_congr (h.get?_later hc.toWired hother hparam) }⟩
  · obtain ⟨e, e', he, hmodify, he'⟩ := h.stages.overridden.given (param, shape)
      (List.mem_of_getElem? (List.getElem?_zip_eq_some.mpr ⟨hparam, hshape⟩))
    exact ⟨e, e', expr_eq_ok_iff.mpr he, hmodify,
      expr_eq_ok_iff.mpr ((h.stages.get?_param (List.mem_of_getElem? hparam)).trans he')⟩
  · have hkept := h.stages.overridden.kept param (by simp [hnone])
    exact expr_congr ((h.stages.get?_param hparam).trans hkept)
  · exact expr_congr (hagree.exprs other hother)
  · have hne : other ≠ id := fun heq => (h.nodup hc.toWired).1 (heq ▸ hother)
    exact expr_congr ((h.get?_of_ne hne).trans (hagree'.exprs other hother).symm)

end Interrupted

/-! ## However it ends -/

/-- A failed inference has changed nothing, or it has failed at an expression. -/
theorem Reachable.inferShapes_error (h : Reachable b)
    (herr : (b.inferShapes shapes).1 = .error err) :
    ((b.inferShapes shapes).2 = b ∧
      err = .arityMismatch .graphInputShapes b.parameterIds.length shapes.length) ∨
    ∃ name cause before id after, err = .shapeInference name cause ∧
      Halted b (b.inferShapes shapes).2 b.parameterIds shapes name cause before id after := by
  by_cases hfits : shapes = [] ∨ shapes.length = b.parameterIds.length
  · obtain ⟨fed, m, before, id, after, hinterrupted⟩ := h.coherent.interrupted hfits herr
    obtain ⟨name, cause, hcause, hhalted⟩ := hinterrupted.halted h hfits
    exact .inr ⟨name, cause, before, id, after, hcause, hhalted⟩
  · obtain ⟨hne, hlength⟩ := not_or.mp hfits
    rw [inferShapes_mismatch hne hlength] at herr ⊢
    exact .inl ⟨rfl, (Except.error.inj herr).symm⟩

/-- In every body that can come about and with any provider of strategies: an inference that is
given a wrong number of shapes leaves the body as it is. One that fails at an expression leaves
behind what `Halted` describes. And in every case, also where it succeeds, the only things that it
changes are shapes, with the layouts and blocks that go with them: registers, loops, emitters,
connectors with their readers, roles and ordinals, numbers and the schedule stay. -/
theorem inferShapes_leaves_prefix (h : Reachable b) (shapes : List Shape) :
    ∃ params, b.ByOrdinal .input params ∧
      (∀ what expected got, (b.inferShapes shapes).1 = .error (.arityMismatch what expected got) →
        (b.inferShapes shapes).2 = b) ∧
      (∀ name cause, (b.inferShapes shapes).1 = .error (.shapeInference name cause) →
        ∃ before id after,
          Halted b (b.inferShapes shapes).2 params shapes name cause before id after) ∧
      Reshaped b (b.inferShapes shapes).2 := by
  refine ⟨b.parameterIds, h.coherent.byOrdinal_boundaryIds .input, ?_, ?_,
    reshaped_inferShapes b shapes⟩
  · intro what expected got herr
    rcases h.inferShapes_error herr with ⟨hsame, -⟩ | ⟨name, cause, before, id, after, heq, -⟩
    · exact hsame
    · cases heq
  · intro name cause herr
    rcases h.inferShapes_error herr with ⟨-, heq⟩ | ⟨_, _, before, id, after, heq, hhalted⟩
    · cases heq
    · cases heq
      exact ⟨before, id, after, hhalted⟩

/-- A sum of tensors that do not fit, with something that runs before it, something that reads it,
and a parameter that comes after it. -/
def misfit : Body :=
  (((((empty none).after (.push (.make "x" (.parameter .scalar)) [])).after
    (.push (.make "f" (.unary .neg)) [⟨0⟩])).after
    (.push (.make "y" (.parameter .scalar)) [])).after
    (.push (.make "g" (.binary .add)) [⟨1⟩, ⟨2⟩])).after
    (.push (.make "z" (.parameter .scalar)) []) |>.after (.push (.make "u" .result) [⟨3⟩])

theorem reachable_misfit : Reachable misfit :=
  .step (.step (.step (.step (.step (.step (.empty none) _) _) _) _) _) _

theorem inferShapes_leaves_prefix_misfit : Reachable misfit ∧
    (misfit.inferShapes [⟨[.static 2]⟩, ⟨[.static 3]⟩, ⟨[.dynamic]⟩]).1 =
      .error (.shapeInference "g" (.incompatible ⟨[.static 2]⟩ ⟨[.static 3]⟩)) ∧
    (misfit.inferShapes [⟨[.static 2]⟩]).2 = misfit ∧
    ∃ params before id after, misfit.ByOrdinal .input params ∧
      Halted misfit (misfit.inferShapes [⟨[.static 2]⟩, ⟨[.static 3]⟩, ⟨[.dynamic]⟩]).2 params
        [⟨[.static 2]⟩, ⟨[.static 3]⟩, ⟨[.dynamic]⟩] "g"
        (.incompatible ⟨[.static 2]⟩ ⟨[.static 3]⟩) before id after := by
  have hfails : (misfit.inferShapes [⟨[.static 2]⟩, ⟨[.static 3]⟩, ⟨[.dynamic]⟩]).1 =
      .error (.shapeInference "g" (.incompatible ⟨[.static 2]⟩ ⟨[.static 3]⟩)) := by
    simp only [inferShapes, parameterIds, resultShapes, boundary_eq_insertionSort]
    rfl
  have hrefused : (misfit.inferShapes [⟨[.static 2]⟩]).1 =
      .error (.arityMismatch .graphInputShapes 3 1) := by
    simp only [inferShapes, parameterIds, resultShapes, boundary_eq_insertionSort]
    rfl
  obtain ⟨params, hparams, -, hhalted, -⟩ := inferShapes_leaves_prefix reachable_misfit
    [⟨[.static 2]⟩, ⟨[.static 3]⟩, ⟨[.dynamic]⟩]
  obtain ⟨-, -, hunchanged, -, -⟩ := inferShapes_leaves_prefix reachable_misfit [⟨[.static 2]⟩]
  obtain ⟨before, id, after, hhalted⟩ := hhalted _ _ hfails
  exact ⟨reachable_misfit, hfails, hunchanged _ _ _ hrefused, params, before, id, after, hparams,
    hhalted⟩

end TensorIR.Body
