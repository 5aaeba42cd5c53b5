import Mathlib.Data.List.Induction
import TensorIR.Port.Descriptor

/-!
# Layouts and blocks under new shapes

A new shape leaves layout and block alone or starts both afresh (`Retiled`). Which of the two it
does is decided by the number of axes that the layout lists, which is the rank of the old shape as
long as the layout fits that shape (`Fits`). A layout that someone has chosen need not fit, and
then the rank of the old shape decides nothing. So over a history of settings it is the last layout
chosen, if no shape was given after it, on which it depends whether the ranks decide
(`retiled_iff_fits`, `fits_after_iff`).
-/

set_option autoImplicit false

namespace TensorIR.Descriptor

variable {d d' : Descriptor}

/-! ## One new shape -/

/-- The layout lists as many axes as the shape has. -/
def Fits (d : Descriptor) : Prop := d.layout.length = d.shape.rank

@[simp] theorem length_planar (rank : Nat) : (planar rank).length = rank := List.length_range

theorem fits_ofShape (shape : Shape) : (ofShape shape).Fits := length_planar shape.rank

theorem withShape_of_eq {shape : Shape} (h : shape.rank = d.layout.length) :
    d.withShape shape = { d with shape := shape } := if_pos h

theorem withShape_of_ne {shape : Shape} (h : shape.rank ≠ d.layout.length) :
    d.withShape shape =
      { d with shape := shape, layout := planar shape.rank, subtensor := shape.dims } := if_neg h

/-- Whatever the layout was before, it fits the new shape. -/
theorem fits_withShape (d : Descriptor) (shape : Shape) : (d.withShape shape).Fits := by
  by_cases h : shape.rank = d.layout.length
  · rw [withShape_of_eq h]
    exact h.symm
  · rw [withShape_of_ne h]
    exact length_planar shape.rank

/-- Where the layout fits, the shape that is there already changes nothing. -/
theorem Fits.withShape_self (h : d.Fits) : d.withShape d.shape = d :=
  withShape_of_eq h.symm

/-- To give the same shape twice is to give it once. -/
theorem withShape_withShape (d : Descriptor) (shape : Shape) :
    (d.withShape shape).withShape shape = d.withShape shape := by
  have h := (fits_withShape d shape).withShape_self
  rwa [shape_withShape] at h

/-! ## What a new shape does to the rest -/

/-- Layout and block of the second descriptor are made for its shape if they start afresh, and are
those of the first otherwise; the register stays in any case. -/
structure Retiled (afresh : Prop) (d d' : Descriptor) : Prop where
  fresh : afresh → d'.layout = planar d'.shape.rank ∧ d'.subtensor = d'.shape.dims
  kept : ¬afresh → d'.layout = d.layout ∧ d'.subtensor = d.subtensor
  register : d'.register = d.register

/-- A new shape of another rank than the layout lists axes starts layout and block afresh. -/
theorem retiled_withShape (d : Descriptor) (shape : Shape) :
    Retiled (shape.rank ≠ d.layout.length) d (d.withShape shape) where
  fresh h := by
    rw [withShape_of_ne h]
    exact ⟨rfl, rfl⟩
  kept h := by
    rw [withShape_of_eq (not_not.mp h)]
    exact ⟨rfl, rfl⟩
  register := register_withShape d shape

/-- Whether a new shape starts layout and block afresh is decided by the ranks of the two shapes,
for all new shapes, exactly if the layout fits the old one. -/
theorem retiled_iff_fits :
    (∀ shape : Shape, Retiled (shape.rank ≠ d.shape.rank) d (d.withShape shape)) ↔ d.Fits := by
  constructor
  · intro hall
    -- The old shape is a new shape of the same rank, and after it the layout fits.
    have hkept := (hall d.shape).kept (fun hne => hne rfl)
    have hfits := fits_withShape d d.shape
    rwa [Fits, hkept.1, shape_withShape] at hfits
  · intro hfits shape
    have hretiled := retiled_withShape d shape
    rwa [hfits] at hretiled

/-- The descriptor is as it was, or has been given the shape that it has. -/
def Recast (d d' : Descriptor) : Prop := d' = d ∨ d' = d.withShape d'.shape

theorem Recast.refl (d : Descriptor) : Recast d d := .inl rfl

theorem recast_withShape (d : Descriptor) (shape : Shape) : Recast d (d.withShape shape) :=
  .inr (by rw [shape_withShape])

/-- Where the layout fits, the ranks decide, also if no new shape has been given. -/
theorem Recast.retiled (h : Recast d d') (hfits : d.Fits) :
    Retiled (d'.shape.rank ≠ d.shape.rank) d d' := by
  have hlaw := retiled_iff_fits.mpr hfits d'.shape
  cases h with
  | inl hsame =>
    subst hsame
    rwa [hfits.withShape_self] at hlaw
  | inr hgiven => rwa [← hgiven] at hlaw

/-! ## Histories of settings -/

/-- A part of a descriptor and what it is set to. -/
inductive Setting where
  | shape (given : Shape)
  | layout (axes : List Nat)
  | subtensor (block : List Dim)
  | register (assigned : Option Register)

/-- The descriptor with a part set. Only a shape has an effect on other parts. -/
def Setting.apply (d : Descriptor) : Setting → Descriptor
  | .shape given => d.withShape given
  | .layout axes => { d with layout := axes }
  | .subtensor block => { d with subtensor := block }
  | .register assigned => { d with register := assigned }

/-- The descriptor after settings, one after the other. -/
def after (d : Descriptor) (settings : List Setting) : Descriptor := settings.foldl Setting.apply d

/-- The layout that is chosen after a setting, where another one was chosen before it. -/
def Setting.chosen (before : Option (List Nat)) : Setting → Option (List Nat)
  | .shape _ => none
  | .layout axes => some axes
  | .subtensor _ | .register _ => before

/-- The layout that was set last, unless a shape was given after it. -/
def chosenLayout? (settings : List Setting) : Option (List Nat) :=
  settings.foldl Setting.chosen none

theorem after_concat (settings : List Setting) (last : Setting) :
    d.after (settings ++ [last]) = Setting.apply (d.after settings) last := List.foldl_append

theorem chosenLayout?_concat (settings : List Setting) (last : Setting) :
    chosenLayout? (settings ++ [last]) = Setting.chosen (chosenLayout? settings) last :=
  List.foldl_append

/-- After any settings the layout fits, unless it was chosen and does not list as many axes as the
shape has. -/
theorem fits_after_iff (start : Shape) (settings : List Setting) :
    ((ofShape start).after settings).Fits ↔ ∀ axes, chosenLayout? settings = some axes →
      axes.length = ((ofShape start).after settings).shape.rank := by
  induction settings using List.reverseRecOn with
  | nil =>
    refine ⟨fun _ axes h => ?_, fun _ => fits_ofShape start⟩
    cases h
  | append_singleton settings last ih =>
    rw [after_concat, chosenLayout?_concat]
    cases last with
    | shape given =>
      refine ⟨fun _ axes h => ?_, fun _ => fits_withShape _ given⟩
      cases h
    | layout axes => simp [Setting.apply, Setting.chosen, Fits]
    | subtensor | register => exact ih

end TensorIR.Descriptor
