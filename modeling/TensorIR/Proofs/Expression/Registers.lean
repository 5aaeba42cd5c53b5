import TensorIR.Proofs.Expression.Retouching

/-!
# Assigning registers

An assignment of registers is taken if it has one entry for each port, and then as a whole
(`withRegisters_of_takes`). It is a lens on the expression: what is assigned is what is found
afterwards, the latest assignment is the only one that counts, to assign what is there changes
nothing, and the rest of the expression (`unassigned`) is left alone.

The two lists of an assignment are zipped with two lists of wires. All four laws are laws of that
zipping, on lists of the same length.
-/

set_option autoImplicit false

namespace TensorIR

/-- The wire without its register. -/
def Wire.unassigned (w : Wire) : Wire :=
  { w with descriptor := { w.descriptor with register := none } }

namespace Expression

/-- The expression without its registers. -/
def unassigned (e : Expression) : Expression :=
  (e.withInputs (e.inputs.map Wire.unassigned) (List.length_map _)).withOutputs
    (e.outputs.map Wire.unassigned) (List.length_map _)

/-- The assignment has one entry for each port. -/
def Takes (e : Expression) (r : RegisterAssignment) : Prop :=
  r.inputs.length = e.inputs.length ∧ r.outputs.length = e.outputs.length

instance (e : Expression) (r : RegisterAssignment) : Decidable (e.Takes r) :=
  inferInstanceAs (Decidable (_ ∧ _))

variable {e e' : Expression} {r : RegisterAssignment}

theorem takes_registers (e : Expression) : e.Takes e.registers :=
  ⟨List.length_map _, List.length_map _⟩

/-- Only the node decides which assignments are taken. -/
theorem takes_iff_of_node (h : e'.node = e.node) : e'.Takes r ↔ e.Takes r := by
  rw [Takes, Takes, e'.length_inputs, e'.length_outputs, e.length_inputs, e.length_outputs, h]

/-! ## Wires -/

theorem map_register_assignRegisters {ws : List Wire} {rs : List (Option Register)}
    (h : rs.length = ws.length) :
    (assignRegisters ws rs).map (fun w => w.descriptor.register) = rs := by
  induction ws generalizing rs with
  | nil =>
    obtain rfl := List.eq_nil_of_length_eq_zero h
    rfl
  | cons w ws ih =>
    obtain ⟨r, rs, rfl⟩ := List.exists_cons_of_length_eq_add_one h
    rw [assignRegisters, List.map_cons, ih (Nat.succ.inj h)]

theorem map_unassigned_assignRegisters (ws : List Wire) (rs : List (Option Register)) :
    (assignRegisters ws rs).map Wire.unassigned = ws.map Wire.unassigned := by
  fun_induction assignRegisters ws rs with
  | case1 w ws r rs ih =>
    rw [List.map_cons, List.map_cons, ih]
    rfl
  | case2 => rfl

/-- Nothing is left of an assignment after another one. -/
theorem assignRegisters_again {ws : List Wire} {rs rs' : List (Option Register)}
    (h : rs.length ≤ rs'.length) :
    assignRegisters (assignRegisters ws rs) rs' = assignRegisters ws rs' := by
  fun_induction assignRegisters ws rs generalizing rs' with
  | case1 w ws r rs ih =>
    obtain _ | ⟨r', rs'⟩ := rs'
    · cases h
    · rw [assignRegisters, assignRegisters, ih (Nat.le_of_succ_le_succ h)]
  | case2 => rfl

theorem assignRegisters_self (ws : List Wire) :
    assignRegisters ws (ws.map fun w => w.descriptor.register) = ws := by
  induction ws with
  | nil => rfl
  | cons w ws ih => rw [List.map_cons, assignRegisters, ih]

/-! ## Expressions -/

/-- The expression with the registers of an assignment. -/
def assign (e : Expression) (r : RegisterAssignment) : Expression :=
  { e with
    inputs := assignRegisters e.inputs r.inputs
    outputs := assignRegisters e.outputs r.outputs
    length_inputs := (length_assignRegisters ..).trans e.length_inputs
    length_outputs := (length_assignRegisters ..).trans e.length_outputs }

theorem withRegisters_of_takes (h : e.Takes r) : e.withRegisters r = .ok (e.assign r) := by
  rw [withRegisters, if_neg (fun hne => hne h.1), if_neg (fun hne => hne h.2)]
  rfl

/-- What is wrong with an assignment that is refused. The inputs are looked at first. -/
def mismatch (e : Expression) (r : RegisterAssignment) : IrError :=
  if r.inputs.length = e.inputs.length then
    .arityMismatch .outputRegisters e.outputs.length r.outputs.length
  else .arityMismatch .inputRegisters e.inputs.length r.inputs.length

theorem withRegisters_of_not_takes (h : ¬ e.Takes r) :
    e.withRegisters r = .error (e.mismatch r) := by
  unfold withRegisters mismatch
  by_cases hin : r.inputs.length = e.inputs.length
  · have hout : r.outputs.length ≠ e.outputs.length := fun hout => h ⟨hin, hout⟩
    rw [if_neg (fun hne => hne hin), if_pos hout, if_pos hin]
  · rw [if_pos hin, if_neg hin]

theorem exists_withRegisters_iff : (∃ e', e.withRegisters r = .ok e') ↔ e.Takes r := by
  constructor
  · rintro ⟨e', he'⟩
    refine Decidable.byContradiction fun h => ?_
    rw [withRegisters_of_not_takes h] at he'
    cases he'
  · exact fun h => ⟨_, withRegisters_of_takes h⟩

theorem registers_assign (h : e.Takes r) : (e.assign r).registers = r := by
  show RegisterAssignment.mk ((assignRegisters e.inputs r.inputs).map _)
    ((assignRegisters e.outputs r.outputs).map _) = r
  rw [map_register_assignRegisters h.1, map_register_assignRegisters h.2]

theorem assign_registers (e : Expression) : e.assign e.registers = e := by
  cases e
  simp only [assign, registers, assignRegisters_self]

theorem unassigned_assign (e : Expression) (r : RegisterAssignment) :
    (e.assign r).unassigned = e.unassigned := by
  simp only [unassigned, assign, withInputs, withOutputs, map_unassigned_assignRegisters]

/-- Nothing is left of an assignment that was taken after another one is. -/
theorem assign_assign (h : e.Takes r) {r' : RegisterAssignment} (h' : e.Takes r') :
    (e.assign r).assign r' = e.assign r' := by
  have hin : r.inputs.length ≤ r'.inputs.length := Nat.le_of_eq (h.1.trans h'.1.symm)
  have hout : r.outputs.length ≤ r'.outputs.length := Nat.le_of_eq (h.2.trans h'.2.symm)
  simp only [assign, assignRegisters_again hin, assignRegisters_again hout]

theorem takes_assign_iff {r' : RegisterAssignment} : (e.assign r).Takes r' ↔ e.Takes r' :=
  takes_iff_of_node rfl

/-- After an assignment was taken, every other one fares as it would have before. -/
theorem withRegisters_assign (h : e.Takes r) (r' : RegisterAssignment) :
    (e.assign r).withRegisters r' = e.withRegisters r' := by
  by_cases h' : e.Takes r'
  · rw [withRegisters_of_takes h', withRegisters_of_takes (takes_assign_iff.mpr h'),
      assign_assign h h']
  · rw [withRegisters_of_not_takes h', withRegisters_of_not_takes (mt takes_assign_iff.mp h')]
    simp only [mismatch, assign, length_assignRegisters]

/-- An assignment of registers to an expression happens as a whole or not at all. -/
structure AssignsWhole (e : Expression) (r : RegisterAssignment) : Prop where
  taken_iff : (∃ e', e.withRegisters r = .ok e') ↔ e.Takes r
  found : ∀ e', e.withRegisters r = .ok e' → e'.registers = r
  rest : ∀ e', e.withRegisters r = .ok e' → e'.unassigned = e.unassigned
  latest : ∀ e' r', e.withRegisters r = .ok e' → e'.withRegisters r' = e.withRegisters r'
  same : e.withRegisters e.registers = .ok e

theorem assignsWhole (e : Expression) (r : RegisterAssignment) : e.AssignsWhole r := by
  have htaken : ∀ e', e.withRegisters r = .ok e' → e.Takes r ∧ e' = e.assign r := by
    intro e' he'
    have h := exists_withRegisters_iff.mp ⟨e', he'⟩
    exact ⟨h, Except.ok.inj (he'.symm.trans (withRegisters_of_takes h))⟩
  constructor
  · exact exists_withRegisters_iff
  · intro e' he'
    obtain ⟨h, rfl⟩ := htaken e' he'
    exact registers_assign h
  · intro e' he'
    obtain ⟨-, rfl⟩ := htaken e' he'
    exact unassigned_assign e r
  · intro e' r' he'
    obtain ⟨h, rfl⟩ := htaken e' he'
    exact withRegisters_assign h r'
  · rw [withRegisters_of_takes e.takes_registers, assign_registers]

/-! ## Updates of shapes -/

/-- The expression after updates of shapes, one after the other, of which any may fail. -/
def updated (e : Expression) (updates : List (List Shape)) : Expression :=
  updates.foldl (fun e shapes => (e.updateShapes shapes).2) e

theorem reshaped_updated (e : Expression) (updates : List (List Shape)) :
    Reshaped e (e.updated updates) := by
  induction updates generalizing e with
  | nil => exact .refl e
  | cons shapes updates ih => exact (e.reshaped_updateShapes shapes).trans (ih _)

end Expression

end TensorIR
