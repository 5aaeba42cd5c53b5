import TensorIR.Proofs.Body.Correspondence
import TensorIR.Proofs.Expression.Tiling

/-!
# What inference leaves alone the second time

To bring an expression up to date does nothing at all if it is settled and its layouts fit
(`Settled.steady`). A pass that goes through leaves every expression that it has come to in this
state: it is settled because nothing that it reads changes any more, and its layouts fit because
each of its descriptors has been given a shape (`Wired.fitted_updateAll`). The parameters, which the
pass leaves out, have been given their shapes before it, and to give them the same again does
nothing either (`Stages.overrideShapes_again`).
-/

set_option autoImplicit false

namespace TensorIR.Body

variable {b c fed : Body} {id : ExprId} {ids : List ExprId} {shapes out : List Shape}

/-! ## One expression -/

/-- The expression is up to date in every respect. -/
def Steady (b : Body) (id : ExprId) : Prop := b.updateShapes id = (.ok (), b)

theorem Settled.steady (h : b.Settled id) (hfitted : ∀ e, b.exprs.get? id = some e → e.Fitted) :
    b.Steady id := by
  obtain ⟨e, he, hfed, hattempt⟩ := h
  have hget := expr_eq_ok_iff.mp he
  rw [Steady, updateShapes_of_carried hget (fed_iff.mp hfed),
    (hfitted e hget).updateShapes_self hattempt, OrderedMap.insert_of_get? hget]

/-- An update that succeeds leaves layouts that fit. -/
theorem Wired.fitted_updateShapes (h : Wired b) (hok : (b.updateShapes id).1 = .ok ())
    {e' : Expression} (he' : (b.updateShapes id).2.exprs.get? id = some e') : e'.Fitted := by
  obtain ⟨e, he, -⟩ := (retouched_updateShapes b id).before he'
  obtain ⟨operands, hoperands, hlength⟩ := h.exists_carried he
  rw [updateShapes_of_carried he hoperands] at hok he'
  rw [OrderedMap.get?_insert_self] at he'
  obtain rfl := Option.some.inj he'
  rcases Expression.updateShapes_cases hlength with
    ⟨cause, e', -, herr, -⟩ | ⟨out, e', hattempt, -, -⟩
  · rw [herr] at hok
    cases hok
  · exact Expression.fitted_updateShapes hlength hattempt

/-! ## The pass -/

theorem updateAll_cons_ok (h : (updateAll b (id :: ids)).1 = .ok ()) :
    (b.updateShapes id).1 = .ok () ∧
      updateAll b (id :: ids) = updateAll (b.updateShapes id).2 ids := by
  rw [updateAll] at h ⊢
  split at h
  next => cases h
  next heq => rw [heq]; exact ⟨rfl, rfl⟩

/-- What a pass leaves of an expression that it has come to is what its last update left. -/
theorem exists_last_update (hok : (updateAll b ids).1 = .ok ()) (hid : id ∈ ids) :
    ∃ m, Retouched b m ∧ (m.updateShapes id).1 = .ok () ∧
      (updateAll b ids).2.exprs.get? id = (m.updateShapes id).2.exprs.get? id := by
  induction ids generalizing b with
  | nil => cases hid
  | cons first ids ih =>
    obtain ⟨hfirst, hrest⟩ := updateAll_cons_ok hok
    rw [hrest] at hok ⊢
    by_cases hmem : id ∈ ids
    · obtain ⟨m, hr, hlast, hsame⟩ := ih hok hmem
      exact ⟨m, (retouched_updateShapes b first).trans hr, hlast, hsame⟩
    · obtain rfl := (List.mem_cons.mp hid).resolve_right hmem
      exact ⟨b, .refl b, hfirst, exprs_updateAll_of_notMem hmem⟩

/-- Everything that a pass has come to has layouts that fit. -/
theorem Wired.fitted_updateAll (h : Wired b) (hok : (updateAll b ids).1 = .ok ()) (hid : id ∈ ids)
    {e' : Expression} (he' : (updateAll b ids).2.exprs.get? id = some e') : e'.Fitted := by
  obtain ⟨m, hr, hlast, hsame⟩ := exists_last_update hok hid
  exact (h.retouched hr).fitted_updateShapes hlast (hsame.symm.trans he')

theorem updateAll_of_steady (h : ∀ id ∈ ids, b.Steady id) : updateAll b ids = (.ok (), b) := by
  induction ids with
  | nil => rfl
  | cons id ids ih =>
    obtain ⟨hid, hids⟩ := List.forall_mem_cons.mp h
    rw [updateAll, hid]
    exact ih hids

/-! ## Parameters -/

/-- To give expressions the shapes that they were given last changes nothing. -/
theorem overrideShapes_self {pairs : List (ExprId × Shape)}
    (h : ∀ p ∈ pairs, ∃ e, b.exprs.get? p.1 = some e ∧
      e.modifyDescriptor .output 0 (·.withShape p.2) = .ok e) :
    overrideShapes b pairs = (.ok (), b) := by
  induction pairs with
  | nil => rfl
  | cons p pairs ih =>
    obtain ⟨⟨e, he, hsame⟩, hpairs⟩ := List.forall_mem_cons.mp h
    rw [overrideShapes, editExpr_ok he hsame, OrderedMap.insert_of_get? he]
    exact ih hpairs

/-- After the whole inference the parameters still have the shapes given to them. -/
theorem Stages.overrideShapes_again (h : Stages b shapes fed (.ok ()) c) :
    overrideShapes c (b.parameterIds.zip shapes) = (.ok (), c) := by
  refine overrideShapes_self fun p hp => ?_
  obtain ⟨e, e', -, hmodify, he'⟩ := h.overridden.given p hp
  exact ⟨e', (h.get?_param (List.of_mem_zip hp).1).trans he',
    Expression.modifyDescriptor_again hmodify⟩

/-! ## The whole inference -/

theorem Retouched.boundaryIds (h : Retouched b c) (hb : Coherent b) (side : Direction) :
    c.boundaryIds side = b.boundaryIds side :=
  (((hb.retouched h).byOrdinal_boundaryIds side).retouched h).unique
    (hb.byOrdinal_boundaryIds side)

theorem Retouched.byOrdinal_boundaryIds (h : Retouched b c) (hb : Coherent b) (side : Direction) :
    c.ByOrdinal side (b.boundaryIds side) := by
  rw [← h.boundaryIds hb side]
  exact (hb.retouched h).byOrdinal_boundaryIds side

/-- An inference that goes through has been given shapes that fit, and has come to everything. -/
theorem Coherent.stages_of_ok (h : Coherent b) (hok : b.inferShapes shapes = (.ok out, c)) :
    (shapes = [] ∨ shapes.length = b.parameterIds.length) ∧
      ∃ fed, Stages b shapes fed (.ok ()) c := by
  by_cases hfits : shapes = [] ∨ shapes.length = b.parameterIds.length
  · obtain ⟨fed, outcome, c', hstages⟩ := h.stages hfits
    have hanswer := hstages.answer
    rw [hok] at hanswer
    cases outcome with
    | error err => cases hanswer
    | ok =>
      obtain ⟨-, rfl⟩ := Prod.mk.inj hanswer
      exact ⟨hfits, fed, hstages⟩
  · obtain ⟨hne, hlength⟩ := not_or.mp hfits
    rw [Body.inferShapes_mismatch hne hlength] at hok
    cases hok

section

variable (h : Coherent b) (hok : b.inferShapes shapes = (.ok out, c)) (hid : id ∈ c.order)
  (hparam : ¬ c.IsParameter id)
include h hok hid hparam

/-- After an inference that goes through, everything but the parameters is settled. -/
theorem Coherent.settled_of_ok : c.Settled id := by
  have hparams : b.ByOrdinal .input b.parameterIds := h.byOrdinal_boundaryIds .input
  obtain ⟨hfits, fed, hstages⟩ := h.stages_of_ok hok
  obtain ⟨hr, hsolved⟩ := h.solved_of_ok hparams (h.byOrdinal_boundaryIds .output) hfits
    (congrArg Prod.fst hok)
  rw [hok] at hr hsolved
  exact hsolved.settledIn hparams hr (h.toWired.retouched hr) id hid hparam

/-- After an inference that goes through, everything but the parameters is up to date. -/
theorem Coherent.steady_of_ok : c.Steady id := by
  obtain ⟨-, fed, hstages⟩ := h.stages_of_ok hok
  have hr : Retouched b c := hstages.retouched
  have hparams : c.ByOrdinal .input b.parameterIds := hr.byOrdinal_boundaryIds h .input
  have hnot : id ∉ b.parameterIds := fun hmem => hparam ((hparams.isParameter_iff id).mpr hmem)
  refine (h.settled_of_ok hok hid hparam).steady fun e he => ?_
  have hfed : Wired fed := h.toWired.retouched hstages.retouched_fed
  have hmem : id ∈ b.order.filter (· ∉ b.parameterIds) :=
    List.mem_filter.mpr ⟨hr.order ▸ hid, decide_eq_true hnot⟩
  have hpass := hstages.pass
  exact hfed.fitted_updateAll (congrArg Prod.fst hpass) hmem (by rw [hpass]; exact he)

end

end TensorIR.Body
