import TensorIR.Body.Shapes
import TensorIR.Proofs.Body.Retouching

/-!
# What shape inference leaves alone

Shape inference replaces expressions by expressions with other shapes, one after the other, and it
stops at the first that fails. So a property of bodies that survives one such replacement
(`SurvivesReshaping`) survives every inference, however it ends. Two properties are followed in this
way: the body is a retouch of the one at the start, and it differs from that one in nothing but
shapes (`Reshaped`). The second says more, because passes also attach registers, loops and emitters.
-/

set_option autoImplicit false

namespace TensorIR.Body

/-! ## Properties that survive -/

/-- The property is kept when one expression gets other shapes. -/
def SurvivesReshaping (motive : Body → Prop) : Prop :=
  ∀ (b : Body) (id : ExprId) (e e' : Expression), b.exprs.get? id = some e → e.Reshaped e' →
    motive b → motive { b with exprs := b.exprs.insert id e' }

section Survival

variable {motive : Body → Prop} {b : Body}

theorem SurvivesReshaping.updateShapes (h : SurvivesReshaping motive) (hb : motive b)
    (id : ExprId) : motive (b.updateShapes id).2 := by
  unfold Body.updateShapes
  split
  · exact hb
  next shapes _ =>
    rcases onExpr_cases b id (·.updateShapes shapes) with ⟨err, heq⟩ | ⟨e, he, heq⟩
    · rw [heq]
      exact hb
    · rw [heq]
      exact h b id e _ he (e.reshaped_updateShapes shapes) hb

theorem SurvivesReshaping.updateAll (h : SurvivesReshaping motive) (hb : motive b)
    (ids : List ExprId) : motive (updateAll b ids).2 := by
  induction ids generalizing b with
  | nil => exact hb
  | cons id ids ih =>
    have hstep := h.updateShapes hb id
    rw [Body.updateAll]
    split
    next heq => rw [heq] at hstep; exact hstep
    next heq => rw [heq] at hstep; exact ih hstep

theorem SurvivesReshaping.overrideShapes (h : SurvivesReshaping motive) (hb : motive b)
    (pairs : List (ExprId × Shape)) : motive (overrideShapes b pairs).2 := by
  induction pairs generalizing b with
  | nil => exact hb
  | cons first pairs ih =>
    obtain ⟨id, shape⟩ := first
    have hstep : motive (b.editExpr id (·.modifyDescriptor .output 0 (·.withShape shape))).2 := by
      rcases editExpr_cases b id (·.modifyDescriptor .output 0 (·.withShape shape)) with
        ⟨err, heq⟩ | ⟨e, e', he, hmodify, heq⟩
      · rw [heq]
        exact hb
      · rw [heq]
        exact h b id e e' he (Expression.reshaped_modifyDescriptor hmodify) hb
    rw [Body.overrideShapes]
    split
    next heq => rw [heq] at hstep; exact hstep
    next heq => rw [heq] at hstep; exact ih hstep

theorem SurvivesReshaping.inferShapes (h : SurvivesReshaping motive) (hb : motive b)
    (shapes : List Shape) : motive (b.inferShapes shapes).2 := by
  have hfed := h.overrideShapes hb (b.parameterIds.zip shapes)
  unfold Body.inferShapes
  dsimp only
  split
  · exact hb
  · split
    next heq => rw [heq] at hfed; exact hfed
    next fed heq =>
      rw [heq] at hfed
      have hall := h.updateAll hfed (fed.order.filter (· ∉ b.parameterIds))
      split
      next heq => rw [heq] at hall; exact hall
      next heq => rw [heq] at hall; exact hall

end Survival

/-! ## Inference is a retouch -/

theorem survives_retouched (b : Body) : SurvivesReshaping (Retouched b) :=
  fun _ _ _ _ he hee' h => h.trans (retouched_exprs_insert he hee'.toRetouched)

theorem retouched_updateShapes (b : Body) (id : ExprId) : Retouched b (b.updateShapes id).2 :=
  (survives_retouched b).updateShapes (.refl b) id

theorem retouched_updateAll (b : Body) (ids : List ExprId) : Retouched b (updateAll b ids).2 :=
  (survives_retouched b).updateAll (.refl b) ids

theorem retouched_overrideShapes (b : Body) (pairs : List (ExprId × Shape)) :
    Retouched b (overrideShapes b pairs).2 :=
  (survives_retouched b).overrideShapes (.refl b) pairs

theorem retouched_of_updateAll {b b' : Body} {ids : List ExprId} {outcome : Except IrError Unit}
    (h : updateAll b ids = (outcome, b')) : Retouched b b' := by
  have := retouched_updateAll b ids
  rwa [h] at this

theorem retouched_of_overrideShapes {b b' : Body} {pairs : List (ExprId × Shape)}
    {outcome : Except IrError Unit} (h : overrideShapes b pairs = (outcome, b')) :
    Retouched b b' := by
  have := retouched_overrideShapes b pairs
  rwa [h] at this

theorem retouched_inferShapes (b : Body) (shapes : List Shape) :
    Retouched b (b.inferShapes shapes).2 :=
  (survives_retouched b).inferShapes (.refl b) shapes

/-! ## Inference changes nothing but shapes -/

/-- The second body is the first with other shapes at its ports. -/
structure Reshaped (b b' : Body) : Prop extends Retouched b b' where
  reshaped : ∀ id e e', b.exprs.get? id = some e → b'.exprs.get? id = some e' → e.Reshaped e'

theorem Reshaped.refl (b : Body) : Reshaped b b where
  toRetouched := .refl b
  reshaped id e e' he he' := by
    obtain rfl := Option.some.inj (he.symm.trans he')
    exact .refl e

theorem survives_reshaped (b : Body) : SurvivesReshaping (Reshaped b) := by
  intro c id e e' he hee' h
  refine { toRetouched := h.toRetouched.trans (retouched_exprs_insert he hee'.toRetouched),
           reshaped := fun other f f' hf hf' => ?_ }
  dsimp only at hf'
  rw [OrderedMap.get?_insert] at hf'
  by_cases hid : other = id
  · subst hid
    rw [if_pos rfl] at hf'
    obtain rfl := Option.some.inj hf'
    exact (h.reshaped other f e hf he).trans hee'
  · rw [if_neg hid] at hf'
    exact h.reshaped other f f' hf hf'

/-- However it ends, an inference changes no register, loop, emitter, connector, role, number or
place in the schedule. -/
theorem reshaped_inferShapes (b : Body) (shapes : List Shape) :
    Reshaped b (b.inferShapes shapes).2 :=
  (survives_reshaped b).inferShapes (.refl b) shapes

end TensorIR.Body
