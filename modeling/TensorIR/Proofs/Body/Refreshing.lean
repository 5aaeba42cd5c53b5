import TensorIR.Proofs.Body.Repeating

/-!
# Single updates after an inference

After an inference that goes through, one expression after the other is brought up to date, in any
order. For everything but the parameters this does nothing at all, because inference has just done
the same. A parameter is different: inference does not ask its strategy, but a single update does,
and the strategy knows only what was declared. So the updates leave all shapes as they are exactly
if every parameter among the expressions is settled, that is, if its strategy answers the shape that
it has (`Coherent.updateAll_iff_settled`).

Being settled is a question of shapes only (`settled_iff_of_sameShapes`). So it is kept along
updates that change no shapes, which is one direction; for the other, an update of a parameter
settles it for good, since nothing flows into it.
-/

set_option autoImplicit false

namespace TensorIR.Body

variable {b c : Body} {id : ExprId} {ids : List ExprId} {shapes out : List Shape} {e : Expression}

/-! ## Settled expressions -/

/-- Whether an expression is settled is a question of shapes only. -/
theorem settled_iff_of_sameShapes (hr : Retouched b c) (hs : SameShapes b c) :
    c.Settled id ↔ b.Settled id := by
  have hsame : ∀ e e', b.exprs.get? id = some e → c.exprs.get? id = some e' → e.Retouched e' →
      ((c.Fed e' ↔ b.Fed e) ∧
        (e'.attempt e'.inputShapes = .ok e'.outputShapes ↔
          e.attempt e.inputShapes = .ok e.outputShapes)) := by
    intro e e' he he' hee'
    have hcarried : c.carriedShape = b.carriedShape :=
      funext fun x => hs.carriedShape hr.connectors x
    rw [fed_iff, fed_iff, hee'.inputs, hcarried, hee'.attempt, hs.inputShapes he he',
      hs.outputShapes he he']
    exact ⟨.rfl, .rfl⟩
  constructor
  · intro h
    obtain ⟨e', he', hfed, hattempt⟩ := h
    obtain ⟨e, he, hee'⟩ := hr.before (expr_eq_ok_iff.mp he')
    obtain ⟨hfed_iff, hattempt_iff⟩ := hsame e e' he (expr_eq_ok_iff.mp he') hee'
    exact ⟨e, expr_eq_ok_iff.mpr he, hfed_iff.mp hfed, hattempt_iff.mp hattempt⟩
  · intro h
    obtain ⟨e, he, hfed, hattempt⟩ := h
    obtain ⟨e', he', hee'⟩ := hr.after (expr_eq_ok_iff.mp he)
    obtain ⟨hfed_iff, hattempt_iff⟩ := hsame e e' (expr_eq_ok_iff.mp he) he' hee'
    exact ⟨e', expr_eq_ok_iff.mpr he', hfed_iff.mpr hfed, hattempt_iff.mpr hattempt⟩

/-- A parameter is settled if its strategy answers the shape that it has, whatever else there is. -/
theorem settled_iff_of_parameter (he : b.exprs.get? id = some e)
    (hside : e.node.op.side? = some .input) :
    b.Settled id ↔ e.attempt e.inputShapes = .ok e.outputShapes := by
  constructor
  · intro h
    obtain ⟨e', he', -, hattempt⟩ := h
    obtain rfl := Option.some.inj (he.symm.trans (expr_eq_ok_iff.mp he'))
    exact hattempt
  · intro hattempt
    exact ⟨e, expr_eq_ok_iff.mpr he, fed_of_parameter hside, hattempt⟩

/-- The update of a settled expression succeeds and changes no shapes. -/
theorem Settled.updateShapes (h : b.Settled id) :
    (b.updateShapes id).1 = .ok () ∧ SameShapes b (b.updateShapes id).2 := by
  obtain ⟨e, he, hfed, hattempt⟩ := h
  have hget := expr_eq_ok_iff.mp he
  have hin : e.inputShapes.length = e.inputs.length := List.length_map ..
  have hout : e.outputShapes.length = e.outputs.length := List.length_map ..
  have hupdated := Expression.updated_withShapes hin hout
  rw [updateShapes_of_carried hget (fed_iff.mp hfed),
    Expression.updateShapes_of_attempt hin hattempt]
  refine ⟨rfl, fun port => ?_⟩
  by_cases hid : port.expr = id
  · subst hid
    exact shapeAt_eq_of_shapes (OrderedMap.get?_insert_self ..) hget hupdated.inputShapes
      hupdated.outputShapes port.direction port.index
  · exact shapeAt_congr (OrderedMap.get?_insert_of_ne _ _ hid)

/-! ## Updates one after the other -/

/-- Updates of settled expressions all succeed and change no shapes. -/
theorem updateAll_of_settled (h : ∀ id ∈ ids, b.Settled id) :
    (updateAll b ids).1 = .ok () ∧ SameShapes b (updateAll b ids).2 := by
  induction ids generalizing b with
  | nil => exact ⟨rfl, .refl b⟩
  | cons id ids ih =>
    obtain ⟨hid, hids⟩ := List.forall_mem_cons.mp h
    obtain ⟨hok, hsame⟩ := hid.updateShapes
    have hstep : b.updateShapes id = (.ok (), (b.updateShapes id).2) := Prod.ext hok rfl
    -- The others are still settled, because no shape has changed.
    obtain ⟨hrest, hsame'⟩ := ih fun other hother =>
      (settled_iff_of_sameShapes (retouched_updateShapes b id) hsame).mpr (hids other hother)
    rw [updateAll, hstep]
    exact ⟨hrest, hsame.trans hsame'⟩

/-- A parameter that has been brought up to date is settled, whatever comes after it. -/
theorem Wired.settled_of_updateAll (h : Wired b) (hok : (updateAll b ids).1 = .ok ())
    (hid : id ∈ ids) (hparam : b.IsParameter id) : (updateAll b ids).2.Settled id := by
  obtain ⟨m, hr, hlast, hsame⟩ := exists_last_update hok hid
  have hupdate : Retouched m (m.updateShapes id).2 := retouched_updateShapes m id
  obtain ⟨e, he, hside⟩ := ((hr.trans hupdate).isParameter_iff id).mpr hparam
  obtain ⟨old, hold, -⟩ := hupdate.before he
  have hsettled : (m.updateShapes id).2.Settled id := by
    rcases (h.retouched hr).updateShapes_cases hold with ⟨err, herr, -⟩ | ⟨-, hsettled⟩
    · rw [herr] at hlast
      cases hlast
    · exact hsettled
  rw [settled_iff_of_parameter (hsame.trans he) hside]
  exact (settled_iff_of_parameter he hside).mp hsettled

/-- After an inference that goes through, updates change no shapes exactly if the parameters among
the expressions are settled. -/
theorem Coherent.updateAll_iff_settled (h : Coherent b)
    (hok : b.inferShapes shapes = (.ok out, c)) (hlive : ∀ id ∈ ids, id ∈ c.order) :
    ((updateAll c ids).1 = .ok () ∧ SameShapes c (updateAll c ids).2) ↔
      ∀ id ∈ ids, c.IsParameter id → c.Settled id := by
  obtain ⟨-, fed, hstages⟩ := h.stages_of_ok hok
  have hc : Coherent c := h.retouched hstages.retouched
  constructor
  · intro hx id hid hparam
    obtain ⟨hran, hsame⟩ := hx
    have hsettled := hc.settled_of_updateAll hran hid hparam
    exact (settled_iff_of_sameShapes (retouched_updateAll c ids) hsame).mp hsettled
  · intro hparams
    refine updateAll_of_settled fun id hid => ?_
    by_cases hparam : c.IsParameter id
    · exact hparams id hid hparam
    · exact h.settled_of_ok hok (hlive id hid) hparam

/-- With the built-in strategy a parameter is settled if it has the shape that it declares. -/
theorem Numbered.settled_iff_declared (h : Numbered b) (he : b.exprs.get? id = some e)
    {declared : Shape} (hop : e.node.op = .parameter declared)
    (hbuiltin : ∀ provide, b.provider = some provide → provide e.node = none) :
    b.Settled id ↔ b.shapeAt ⟨id, .output, 0⟩ = .ok declared := by
  have hside : e.node.op.side? = some .input := by rw [hop]; rfl
  have hstrategy : e.strategy = some (ShapeRule.declared declared).infer := by
    rw [(h.installed id e he).strategy]
    simp only [strategyFor, Provider.orElse, ShapeRule.provider, ShapeRule.ofOp?, hop]
    cases hprovider : b.provider with
    | none => rfl
    | some provide => simp [hbuiltin provide hprovider]
  obtain ⟨shape, hshape⟩ := List.length_eq_one_iff.mp (length_outputShapes_of_parameter hside)
  have hlength : e.outputs.length = 1 :=
    e.length_outputs.trans (counts_of_parameter hside).2
  rw [settled_iff_of_parameter he hside, shapeAt_output_iff he, Expression.attempt_eq_ok_iff]
  simp [hstrategy, ShapeRule.infer, hshape, hlength, eq_comm]

/-- In every body that can come about and with any provider of strategies, let an inference have
gone through, and then bring live expressions up to date one by one, in any order and any number of
times. If none of them is a parameter, all updates succeed and nothing changes at all. In general
all succeed and no shape changes, at any port, exactly if the parameters among them are settled.
With the built-in strategy these are the parameters that have the shape they declare. -/
theorem updateAll_after_inferShapes (h : Reachable b)
    (hok : b.inferShapes shapes = (.ok out, c)) :
    (∀ ids, (∀ id ∈ ids, ∃ e, c.expr id = .ok e ∧ e.node.op.side? ≠ some .input) →
      updateAll c ids = (.ok (), c)) ∧
    (∀ ids, (∀ id ∈ ids, ∃ e, c.expr id = .ok e) →
      (((updateAll c ids).1 = .ok () ∧ SameShapes c (updateAll c ids).2) ↔
        ∀ id ∈ ids, c.IsParameter id → c.Settled id)) ∧
    ∀ id e declared, c.expr id = .ok e → e.node.op = .parameter declared →
      (∀ provide, c.provider = some provide → provide e.node = none) →
        (c.Settled id ↔ c.shapeAt ⟨id, .output, 0⟩ = .ok declared) := by
  have hb := h.coherent
  obtain ⟨-, fed, hstages⟩ := hb.stages_of_ok hok
  have hc : Coherent c := hb.retouched hstages.retouched
  have horder : ∀ {id e}, c.expr id = .ok e → id ∈ c.order :=
    fun he => (hc.mem_order _).mpr ⟨_, expr_eq_ok_iff.mp he⟩
  refine ⟨fun ids hids => updateAll_of_steady fun id hid => ?_, fun ids hlive => ?_, ?_⟩
  · obtain ⟨e, he, hside⟩ := hids id hid
    refine hb.steady_of_ok hok (horder he) fun hparam => ?_
    obtain ⟨e', he', hside'⟩ := hparam
    obtain rfl := Option.some.inj (he'.symm.trans (expr_eq_ok_iff.mp he))
    exact hside hside'
  · refine hb.updateAll_iff_settled hok fun id hid => ?_
    obtain ⟨e, he⟩ := hlive id hid
    exact horder he
  · intro id e declared he hop hbuiltin
    exact hc.toNumbered.settled_iff_declared (expr_eq_ok_iff.mp he) hop hbuiltin

def twoByThree : Shape := ⟨[.ofCode 2, .ofCode 3]⟩

def fourByFive : Shape := ⟨[.ofCode 4, .ofCode 5]⟩

/-- A matrix that is passed on as it is. -/
def passedOn : Body :=
  ((empty none).after (.push (.make "x" (.parameter twoByThree)) [])).after
    (.push (.make "result_1" .result) [⟨0⟩])

theorem reachable_passedOn : Reachable passedOn := .step (.step (.empty none) _) _

/-- What an inference over a larger matrix leaves behind. -/
def enlarged : Body := (passedOn.inferShapes [fourByFive]).2

theorem inferShapes_passedOn : passedOn.inferShapes [fourByFive] = (.ok [fourByFive], enlarged) := by
  simp only [enlarged, inferShapes, parameterIds, resultShapes, boundary_eq_insertionSort]
  rfl

/-- The parameter gets its shape, and the result passes it on. -/
theorem enlarged_eq : enlarged =
    (updateAll (passedOn.overrideShapes [(⟨0⟩, fourByFive)]).2 [⟨1⟩]).2 := by
  simp only [enlarged, inferShapes, parameterIds, resultShapes, boundary_eq_insertionSort]
  rfl

theorem shapeAt_enlarged : enlarged.shapeAt ⟨⟨0⟩, .output, 0⟩ = .ok fourByFive := by
  rw [enlarged_eq]
  rfl

/-- A parameter that was given another shape than it declares does not keep it when it is brought up
to date by itself. -/
theorem updateShapes_redeclares :
    Reachable passedOn ∧
      passedOn.inferShapes [fourByFive] = (.ok [fourByFive], enlarged) ∧
      enlarged.shapeAt ⟨⟨0⟩, .output, 0⟩ = .ok fourByFive ∧
      (enlarged.updateShapes ⟨0⟩).1 = .ok () ∧
      (enlarged.updateShapes ⟨0⟩).2.shapeAt ⟨⟨0⟩, .output, 0⟩ = .ok twoByThree ∧
      ¬ SameShapes enlarged (enlarged.updateShapes ⟨0⟩).2 := by
  have hok : (enlarged.updateShapes ⟨0⟩).1 = .ok () := by
    rw [enlarged_eq]
    rfl
  have hafter : (enlarged.updateShapes ⟨0⟩).2.shapeAt ⟨⟨0⟩, .output, 0⟩ = .ok twoByThree := by
    rw [enlarged_eq]
    rfl
  refine ⟨reachable_passedOn, inferShapes_passedOn, shapeAt_enlarged, hok, hafter, ?_⟩
  intro hsame
  have heq := hsame ⟨⟨0⟩, .output, 0⟩
  rw [shapeAt_enlarged, hafter] at heq
  exact absurd heq (by decide)

/-- The result can be brought up to date at any time, and the parameter not without a change. -/
theorem updateAll_after_inferShapes_passedOn :
    Reachable passedOn ∧
      passedOn.inferShapes [fourByFive] = (.ok [fourByFive], enlarged) ∧
      updateAll enlarged [⟨1⟩, ⟨1⟩] = (.ok (), enlarged) ∧
      ¬ ((updateAll enlarged [⟨1⟩, ⟨0⟩]).1 = .ok () ∧
        SameShapes enlarged (updateAll enlarged [⟨1⟩, ⟨0⟩]).2) := by
  obtain ⟨hresult, hupdates, hsettled⟩ :=
    updateAll_after_inferShapes reachable_passedOn inferShapes_passedOn
  have hparam : (enlarged.expr ⟨0⟩).map (fun x => x.node.op) = .ok (.parameter twoByThree) := by
    rw [enlarged_eq]
    rfl
  have hrelay : (enlarged.expr ⟨1⟩).map (fun y => y.node.op) = .ok .result := by
    rw [enlarged_eq]
    rfl
  have hbuiltin : enlarged.provider = none := by
    rw [enlarged_eq]
    rfl
  obtain ⟨x, hx, hop⟩ := map_eq_ok_iff.mp hparam
  obtain ⟨y, hy, hside⟩ := map_eq_ok_iff.mp hrelay
  refine ⟨reachable_passedOn, inferShapes_passedOn, hresult _ (by simp [hy, hside, Op.side?]), ?_⟩
  rw [hupdates _ (by simp [hx, hy])]
  intro hall
  -- The parameter would have to have the shape that it declares.
  have hdeclared := (hsettled ⟨0⟩ x _ hx hop (by simp [hbuiltin])).mp
    (hall ⟨0⟩ (by simp) ⟨x, expr_eq_ok_iff.mp hx, by rw [hop]; rfl⟩)
  rw [shapeAt_enlarged] at hdeclared
  exact absurd hdeclared (by decide)

end TensorIR.Body
