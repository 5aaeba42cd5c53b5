import TensorIR.Expression.Update

/-!
# What passes leave alone

Passes assign registers, loops and emitters, edit descriptors and bring shapes up to date. All of
that is attached to an expression; none of it changes what the expression is: its number, its node,
the connectors at its ports, its role and its strategy. `Expression.Retouched` says so once, and
every pass over an expression is a retouch, whether it succeeds or fails.

An update of shapes leaves more alone than that: registers, loops and the emitter, which other
passes have attached, stay as well (`Expression.Reshaped`).
-/

set_option autoImplicit false

namespace TensorIR.Expression

/-- The second expression is the first with other things attached. -/
structure Retouched (e e' : Expression) : Prop where
  id : e'.id = e.id
  node : e'.node = e.node
  inputs : e'.inputConnectors = e.inputConnectors
  outputs : e'.outputConnectors = e.outputConnectors
  role : e'.role = e.role
  strategy : e'.strategy = e.strategy
  /-- Loops may change, but none becomes listed twice. -/
  loops : e.loops.Nodup → e'.loops.Nodup

theorem Retouched.refl (e : Expression) : Retouched e e :=
  ⟨rfl, rfl, rfl, rfl, rfl, rfl, fun h => h⟩

theorem Retouched.trans {e₁ e₂ e₃ : Expression} (h₁₂ : Retouched e₁ e₂) (h₂₃ : Retouched e₂ e₃) :
    Retouched e₁ e₃ where
  id := h₂₃.id.trans h₁₂.id
  node := h₂₃.node.trans h₁₂.node
  inputs := h₂₃.inputs.trans h₁₂.inputs
  outputs := h₂₃.outputs.trans h₁₂.outputs
  role := h₂₃.role.trans h₁₂.role
  strategy := h₂₃.strategy.trans h₁₂.strategy
  loops h := h₂₃.loops (h₁₂.loops h)

/-! ## Wires -/

theorem retouched_withInputs {e : Expression} {ws : List Wire} (h : ws.length = e.inputs.length)
    (hws : ws.map Wire.connector = e.inputConnectors) : Retouched e (e.withInputs ws h) :=
  ⟨rfl, rfl, hws, rfl, rfl, rfl, fun h => h⟩

theorem retouched_withOutputs {e : Expression} {ws : List Wire}
    (h : ws.length = e.outputs.length) (hws : ws.map Wire.connector = e.outputConnectors) :
    Retouched e (e.withOutputs ws h) :=
  ⟨rfl, rfl, rfl, hws, rfl, rfl, fun h => h⟩

/-- What a change to a wire leaves alone is left alone at all wires. -/
theorem map_modify {α : Type} {g : Wire → α} {f : Wire → Wire} (hf : ∀ w, g (f w) = g w)
    (index : Nat) (ws : List Wire) : (ws.modify index f).map g = ws.map g := by
  induction ws generalizing index with
  | nil => simp
  | cons w ws ih =>
    cases index with
    | zero => simp [hf]
    | succ index => simp [ih]

theorem retouched_modifyWire {e : Expression} {direction : Direction} {index : Nat}
    {f : Wire → Wire} (hf : ∀ w, (f w).connector = w.connector) :
    Retouched e (e.modifyWire direction index f) := by
  cases direction with
  | input =>
    exact retouched_withInputs (List.length_modify ..) (map_modify hf index e.inputs)
  | output =>
    exact retouched_withOutputs (List.length_modify ..) (map_modify hf index e.outputs)

theorem modifyDescriptor_eq_ok {e e' : Expression} {direction : Direction} {index : Nat}
    {f : Descriptor → Descriptor} (h : e.modifyDescriptor direction index f = .ok e') :
    e' = e.modifyWire direction index fun w => { w with descriptor := f w.descriptor } := by
  unfold modifyDescriptor at h
  cases hw : e.wire direction index with
  | error err => rw [hw] at h; exact absurd h (by simp [Except.map])
  | ok w =>
    rw [hw] at h
    exact (Except.ok.inj h).symm

theorem retouched_modifyDescriptor {e e' : Expression} {direction : Direction} {index : Nat}
    {f : Descriptor → Descriptor} (h : e.modifyDescriptor direction index f = .ok e') :
    Retouched e e' := by
  obtain rfl := modifyDescriptor_eq_ok h
  exact retouched_modifyWire fun _ => rfl

/-! ## Registers, loops and emitters -/

theorem map_connector_assignRegisters (ws : List Wire) (rs : List (Option Register)) :
    (assignRegisters ws rs).map Wire.connector = ws.map Wire.connector := by
  fun_induction assignRegisters ws rs <;> simp_all

theorem retouched_withRegisters {e e' : Expression} {r : RegisterAssignment}
    (h : e.withRegisters r = .ok e') : Retouched e e' := by
  unfold withRegisters at h
  split at h
  · exact absurd h (by simp)
  · split at h
    · exact absurd h (by simp)
    · obtain rfl := Except.ok.inj h
      exact
        (retouched_withInputs (length_assignRegisters ..) (map_connector_assignRegisters _ _)).trans
          (retouched_withOutputs (length_assignRegisters ..) (map_connector_assignRegisters _ _))

/-- Nothing is found to be repeated exactly when nothing is, neither in the list nor from before. -/
theorem firstRepeated_eq_none_iff {seen loops : List Nat} :
    firstRepeated seen loops = none ↔ loops.Nodup ∧ ∀ loop ∈ loops, loop ∉ seen := by
  induction loops generalizing seen with
  | nil => simp [firstRepeated]
  | cons loop loops ih =>
    rw [firstRepeated]
    by_cases hseen : loop ∈ seen
    · simp [hseen]
    · rw [if_neg hseen, ih, List.nodup_cons, List.forall_mem_cons]
      constructor
      · intro hx
        obtain ⟨hnodup, hfresh⟩ := hx
        refine ⟨⟨fun hmem => hfresh loop hmem (List.mem_cons_self ..), hnodup⟩, hseen, ?_⟩
        exact fun l hl hmem => hfresh l hl (List.mem_cons_of_mem _ hmem)
      · intro hx
        obtain ⟨⟨hnotin, hnodup⟩, _, hfresh⟩ := hx
        refine ⟨hnodup, fun l hl hmem => ?_⟩
        rcases List.mem_cons.mp hmem with rfl | hmem
        · exact hnotin hl
        · exact hfresh l hl hmem

theorem firstRepeated_nil_eq_none_iff {loops : List Nat} :
    firstRepeated [] loops = none ↔ loops.Nodup := by
  simp [firstRepeated_eq_none_iff]

theorem validate_eq_ok_iff {e : Expression} : e.validate = .ok () ↔ e.loops.Nodup := by
  rw [← firstRepeated_nil_eq_none_iff, validate]
  cases firstRepeated [] e.loops <;> simp

theorem retouched_withLoops {e e' : Expression} {loops : List Nat}
    (h : e.withLoops loops = .ok e') : Retouched e e' := by
  unfold withLoops at h
  split at h
  · exact absurd h (by simp)
  next hnone =>
    obtain rfl := Except.ok.inj h
    exact ⟨rfl, rfl, rfl, rfl, rfl, rfl, fun _ => firstRepeated_nil_eq_none_iff.mp hnone⟩

theorem retouched_withEmitter (e : Expression) (emitter : Option Emitter) :
    Retouched e (e.withEmitter emitter) :=
  ⟨rfl, rfl, rfl, rfl, rfl, rfl, fun h => h⟩

theorem retouched_initEmitter {e e' : Expression} {target : Target}
    (h : e.initEmitter target = .ok e') : Retouched e e' := by
  unfold initEmitter at h
  split at h
  · split at h
    · obtain rfl := Except.ok.inj h
      exact retouched_withEmitter e _
    · exact absurd h (by simp)
  · exact absurd h (by simp)

/-! ## Shapes -/

theorem map_connector_assignShapes (ws : List Wire) (ss : List Shape) :
    (assignShapes ws ss).map Wire.connector = ws.map Wire.connector := by
  fun_induction assignShapes ws ss <;> simp_all

theorem retouched_withInputShapes (e : Expression) (shapes : List Shape) :
    Retouched e (e.withInputShapes shapes) :=
  retouched_withInputs (length_assignShapes ..) (map_connector_assignShapes _ _)

theorem retouched_withOutputShapes (e : Expression) (shapes : List Shape) :
    Retouched e (e.withOutputShapes shapes) :=
  retouched_withOutputs (length_assignShapes ..) (map_connector_assignShapes _ _)

/-! ## Nothing but shapes -/

/-- The second expression is the first with other shapes at its ports. -/
structure Reshaped (e e' : Expression) : Prop extends Retouched e e' where
  registers : e'.registers = e.registers
  sameLoops : e'.loops = e.loops
  emitter : e'.emitter = e.emitter

theorem Reshaped.refl (e : Expression) : Reshaped e e :=
  ⟨.refl e, rfl, rfl, rfl⟩

theorem Reshaped.trans {e₁ e₂ e₃ : Expression} (h₁₂ : Reshaped e₁ e₂) (h₂₃ : Reshaped e₂ e₃) :
    Reshaped e₁ e₃ where
  toRetouched := h₁₂.toRetouched.trans h₂₃.toRetouched
  registers := h₂₃.registers.trans h₁₂.registers
  sameLoops := h₂₃.sameLoops.trans h₁₂.sameLoops
  emitter := h₂₃.emitter.trans h₁₂.emitter

theorem map_register_assignShapes (ws : List Wire) (ss : List Shape) :
    (assignShapes ws ss).map (fun w => w.descriptor.register) =
      ws.map fun w => w.descriptor.register := by
  fun_induction assignShapes ws ss <;> simp_all

theorem reshaped_withInputShapes (e : Expression) (shapes : List Shape) :
    Reshaped e (e.withInputShapes shapes) where
  toRetouched := retouched_withInputShapes e shapes
  registers := congrArg (RegisterAssignment.mk · e.registers.outputs)
    (map_register_assignShapes e.inputs shapes)
  sameLoops := rfl
  emitter := rfl

theorem reshaped_withOutputShapes (e : Expression) (shapes : List Shape) :
    Reshaped e (e.withOutputShapes shapes) where
  toRetouched := retouched_withOutputShapes e shapes
  registers := congrArg (RegisterAssignment.mk e.registers.inputs ·)
    (map_register_assignShapes e.outputs shapes)
  sameLoops := rfl
  emitter := rfl

/-- An update of shapes changes nothing else also where it fails. -/
theorem reshaped_updateShapes (e : Expression) (shapes : List Shape) :
    Reshaped e (e.updateShapes shapes).2 := by
  unfold updateShapes
  split
  · exact .refl e
  · split
    · exact .refl e
    · dsimp only
      split
      · exact reshaped_withInputShapes e shapes
      · exact (reshaped_withInputShapes e shapes).trans (reshaped_withOutputShapes _ _)

theorem retouched_updateShapes (e : Expression) (shapes : List Shape) :
    Retouched e (e.updateShapes shapes).2 := (e.reshaped_updateShapes shapes).toRetouched

/-- The shape at one port is edited and nothing else. -/
theorem reshaped_modifyDescriptor {e e' : Expression} {direction : Direction} {index : Nat}
    {shape : Shape} (h : e.modifyDescriptor direction index (·.withShape shape) = .ok e') :
    Reshaped e e' := by
  have hretouched : Retouched e e' := retouched_modifyDescriptor h
  have hregister : ∀ w : Wire,
      (Descriptor.withShape w.descriptor shape).register = w.descriptor.register :=
    fun w => Descriptor.register_withShape w.descriptor shape
  obtain rfl := modifyDescriptor_eq_ok h
  cases direction with
  | input =>
    exact ⟨hretouched, congrArg (RegisterAssignment.mk · e.registers.outputs)
      (map_modify hregister index e.inputs), rfl, rfl⟩
  | output =>
    exact ⟨hretouched, congrArg (RegisterAssignment.mk e.registers.inputs ·)
      (map_modify hregister index e.outputs), rfl, rfl⟩

end TensorIR.Expression
