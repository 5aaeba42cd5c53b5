import TensorIR.Proofs.Expression.Shapes
import TensorIR.Proofs.Port.Tiling

/-!
# Layouts and blocks of an expression

An update of shapes goes through the descriptors of an expression and gives each of them a shape at
most once (`recast_updateShapes`). After one that succeeds each of them has been given one, so all
layouts fit (`fitted_updateShapes`), and to update with the same shapes again does nothing
(`Fitted.updateShapes_self`).
-/

set_option autoImplicit false

namespace TensorIR.Expression

variable {e e' : Expression} {operands out : List Shape} {ws : List Wire} {ss : List Shape}

/-! ## Shapes along wires -/

theorem assignShapes_self (h : ∀ w ∈ ws, w.descriptor.Fits) :
    assignShapes ws (ws.map fun w => w.descriptor.shape) = ws := by
  induction ws with
  | nil => rfl
  | cons w ws ih =>
    obtain ⟨hw, hws⟩ := List.forall_mem_cons.mp h
    rw [List.map_cons, assignShapes, hw.withShape_self, ih hws]

theorem fits_assignShapes (h : ss.length = ws.length) :
    ∀ w ∈ assignShapes ws ss, w.descriptor.Fits := by
  induction ws generalizing ss with
  | nil => simp [assignShapes]
  | cons w ws ih =>
    cases ss with
    | nil => cases h
    | cons s ss =>
      rw [assignShapes, List.forall_mem_cons]
      exact ⟨Descriptor.fits_withShape w.descriptor s, ih (Nat.succ.inj h)⟩

theorem recast_assignShapes {i : Nat} {w' : Wire} (h : (assignShapes ws ss)[i]? = some w') :
    ∃ w, ws[i]? = some w ∧ w.descriptor.Recast w'.descriptor := by
  induction ws generalizing ss i with
  | nil => cases h
  | cons w ws ih =>
    cases ss with
    | nil => exact ⟨w', h, .refl w'.descriptor⟩
    | cons s ss =>
      cases i with
      | zero =>
        obtain rfl := Option.some.inj h
        exact ⟨w, rfl, Descriptor.recast_withShape w.descriptor s⟩
      | succ i => exact ih h

/-! ## Layouts that fit -/

/-- The layouts at all ports fit their shapes. -/
structure Fitted (e : Expression) : Prop where
  inputs : ∀ w ∈ e.inputs, w.descriptor.Fits
  outputs : ∀ w ∈ e.outputs, w.descriptor.Fits

/-- An update with an answer gives all operands and all outputs their shapes. -/
theorem updateShapes_of_attempt (hin : operands.length = e.inputs.length)
    (hattempt : e.attempt operands = .ok out) :
    e.updateShapes operands = (.ok (), (e.withInputShapes operands).withOutputShapes out) := by
  obtain ⟨strategy, hstrategy, hanswer⟩ := attempt_eq_ok_iff.mp hattempt
  rw [updateShapes, if_neg (not_not_intro hin), hstrategy]
  simp only [runStrategy_eq_ok_iff.mpr hanswer]

theorem fitted_updateShapes (hin : operands.length = e.inputs.length)
    (hattempt : e.attempt operands = .ok out) : (e.updateShapes operands).2.Fitted := by
  obtain ⟨-, -, -, hout⟩ := attempt_eq_ok_iff.mp hattempt
  rw [updateShapes_of_attempt hin hattempt]
  exact ⟨fits_assignShapes hin, fits_assignShapes hout⟩

/-- Where all layouts fit, an update with the shapes that are there already changes nothing. -/
theorem Fitted.updateShapes_self (h : e.Fitted)
    (hattempt : e.attempt e.inputShapes = .ok e.outputShapes) :
    e.updateShapes e.inputShapes = (.ok (), e) := by
  have hinputs : assignShapes e.inputs e.inputShapes = e.inputs := assignShapes_self h.inputs
  have houtputs : assignShapes e.outputs e.outputShapes = e.outputs := assignShapes_self h.outputs
  have hlength : e.inputShapes.length = e.inputs.length := List.length_map ..
  rw [updateShapes_of_attempt hlength hattempt]
  simp only [withInputShapes, withOutputShapes, withInputs, withOutputs, hinputs, houtputs]

/-- To give an output the shape that it was given last changes nothing. -/
theorem modifyDescriptor_again {shape : Shape}
    (h : e.modifyDescriptor .output 0 (·.withShape shape) = .ok e') :
    e'.modifyDescriptor .output 0 (·.withShape shape) = .ok e' := by
  obtain rfl := modifyDescriptor_eq_ok h
  cases houtputs : e.outputs with
  | nil => simp [modifyDescriptor, wire, ports, houtputs, Except.map] at h
  | cons w ws =>
    simp [modifyDescriptor, wire, ports, modifyWire, withOutputs, houtputs, Except.map,
      Descriptor.withShape_withShape]

/-! ## Shapes given once -/

/-- Each descriptor of the second expression is one of the first, with another shape or without. -/
def Recast (e e' : Expression) : Prop :=
  ∀ (direction : Direction) (index : Nat) (w' : Wire),
    (e'.ports direction)[index]? = some w' →
      ∃ w, (e.ports direction)[index]? = some w ∧ w.descriptor.Recast w'.descriptor

theorem Recast.refl (e : Expression) : Recast e e :=
  fun _ _ w hw => ⟨w, hw, .refl w.descriptor⟩

theorem recast_updateShapes (e : Expression) (operands : List Shape) :
    Recast e (e.updateShapes operands).2 := by
  have hfed : Recast e (e.withInputShapes operands) := by
    intro direction index w' hw'
    cases direction with
    | input => exact recast_assignShapes hw'
    | output => exact ⟨w', hw', .refl w'.descriptor⟩
  unfold updateShapes
  split
  · exact .refl e
  · split
    · exact .refl e
    · dsimp only
      split
      · exact hfed
      · intro direction index w' hw'
        cases direction with
        | input => exact hfed .input index w' hw'
        | output => exact recast_assignShapes hw'

theorem recast_modify {shape : Shape} {index i : Nat} {w' : Wire}
    (h : (ws.modify index fun w => { w with descriptor := w.descriptor.withShape shape })[i]? =
      some w') : ∃ w, ws[i]? = some w ∧ w.descriptor.Recast w'.descriptor := by
  rw [List.getElem?_modify] at h
  obtain ⟨w, hw, rfl⟩ := Option.map_eq_some_iff.mp h
  refine ⟨w, hw, ?_⟩
  split
  · exact Descriptor.recast_withShape w.descriptor shape
  · exact .refl w.descriptor

theorem recast_modifyDescriptor {index : Nat} {shape : Shape}
    (h : e.modifyDescriptor .output index (·.withShape shape) = .ok e') : Recast e e' := by
  obtain rfl := modifyDescriptor_eq_ok h
  intro direction i w' hw'
  cases direction with
  | input => exact ⟨w', hw', .refl w'.descriptor⟩
  | output => exact recast_modify hw'

end TensorIR.Expression
