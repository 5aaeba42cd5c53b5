import TensorIR.Proofs.Expression.Retouching

/-!
# What an expression is made of

Making an expression succeeds exactly when there are as many connectors as ports, and `Made` says
everything about the result. `Installed` is the part of it that is still true after any number of
passes: what the expression owes to its node and to the number it was given.
-/

set_option autoImplicit false

namespace TensorIR.Expression

/-! ## Making -/

/-- The expression is fresh from its node: nothing is known but what the node declares. -/
structure Made (e : Expression) (node : Node) (inputs outputs : List ConnectorId)
    (provider : Option Provider) (role : Option BoundaryRole) : Prop where
  inputs : e.inputs = wires inputs node.inputShapes
  outputs : e.outputs = wires outputs node.outputShapes
  emitter : e.emitter = none
  loops : e.loops = []
  strategy : e.strategy = strategyFor provider node
  role : e.role = role
  node : e.node = node

variable {node : Node} {inputs outputs : List ConnectorId} {provider : Option Provider}

theorem map_connector_wires {connectors : List ConnectorId} {shapes : List Shape}
    (h : connectors.length = shapes.length) :
    (wires connectors shapes).map Wire.connector = connectors := by
  induction connectors generalizing shapes with
  | nil => rfl
  | cons c cs ih =>
    cases shapes with
    | nil => exact absurd h (by simp)
    | cons s ss =>
      have hrest := ih (Nat.succ.inj h)
      simpa [wires] using hrest

theorem Made.inputConnectors {e : Expression} {role : Option BoundaryRole}
    (h : e.Made node inputs outputs provider role) (hin : inputs.length = node.inputCount) :
    e.inputConnectors = inputs := by
  rw [Expression.inputConnectors, h.inputs,
    map_connector_wires (by rw [hin, node.length_inputShapes])]

theorem Made.outputConnectors {e : Expression} {role : Option BoundaryRole}
    (h : e.Made node inputs outputs provider role) (hout : outputs.length = node.outputCount) :
    e.outputConnectors = outputs := by
  rw [Expression.outputConnectors, h.outputs,
    map_connector_wires (by rw [hout, node.length_outputShapes]; rfl)]

theorem make_ok (hin : inputs.length = node.inputCount) (hout : outputs.length = node.outputCount) :
    ∃ e, make node inputs outputs provider = .ok e ∧ e.Made node inputs outputs provider none := by
  unfold make
  rw [dif_pos hin, dif_pos hout]
  exact ⟨_, rfl, rfl, rfl, rfl, rfl, rfl, rfl, rfl⟩

theorem make_error (hin : inputs.length ≠ node.inputCount) :
    make node inputs outputs provider =
      .error (.arityMismatch .inputConnectors node.inputCount inputs.length) := by
  unfold make
  rw [dif_neg hin]

/-! ## Looking at operands -/

theorem connector_input_eq_ok_iff {e : Expression} {index : Nat} {c : ConnectorId} :
    e.connector .input index = .ok c ↔ e.inputConnectors[index]? = some c := by
  rw [Expression.inputConnectors, List.getElem?_map, connector, wire, ports]
  cases e.inputs[index]? <;> simp [Except.map]

theorem connector_modifyWire_of_ne {e : Expression} {i j : Nat} (hne : i ≠ j) (f : Wire → Wire) :
    (e.modifyWire .input i f).connector .input j = e.connector .input j := by
  have hget : (e.inputs.modify i f)[j]? = e.inputs[j]? := by simp [hne]
  have hwire : (e.modifyWire .input i f).wire .input j = e.wire .input j := by
    unfold wire
    simp [ports, modifyWire, withInputs, hget]
  rw [connector, connector, hwire]

theorem rewire_ok {e : Expression} {index : Nat} {previous target : ConnectorId}
    (h : e.inputConnectors[index]? = some previous) :
    e.rewire index target = .ok (previous,
      e.modifyWire .input index fun w => { w with connector := target }) := by
  rw [Expression.inputConnectors, List.getElem?_map, Option.map_eq_some_iff] at h
  obtain ⟨w, hw, rfl⟩ := h
  rw [rewire, wire, ports]
  simp only [hw]
  rfl

theorem inputConnectors_rewired (e : Expression) (index : Nat) (target : ConnectorId) :
    (e.modifyWire .input index fun w => { w with connector := target }).inputConnectors =
      e.inputConnectors.set index target := by
  show (e.inputs.modify index _).map Wire.connector = (e.inputs.map Wire.connector).set index target
  generalize e.inputs = ws
  induction ws generalizing index with
  | nil => simp
  | cons w ws ih =>
    cases index with
    | zero => simp
    | succ index => simp [ih]

theorem withInputs_congr (e : Expression) {ws ws' : List Wire} (hws : ws = ws')
    (h : ws.length = e.inputs.length) (h' : ws'.length = e.inputs.length) :
    e.withInputs ws h = e.withInputs ws' h' := by
  subst hws
  rfl

/-- Two operands can be changed in either order. -/
theorem modifyWire_input_comm (e : Expression) {i j : Nat} (hne : i ≠ j) (f g : Wire → Wire) :
    (e.modifyWire .input i f).modifyWire .input j g =
      (e.modifyWire .input j g).modifyWire .input i f :=
  e.withInputs_congr (List.modify_modify_ne f g e.inputs hne) (by simp) (by simp)

/-- To let an operand read what it reads already changes nothing. -/
theorem modifyWire_input_self {e : Expression} {index : Nat} {c : ConnectorId}
    (h : e.inputConnectors[index]? = some c) :
    (e.modifyWire .input index fun w => { w with connector := c }) = e := by
  have hsame : (e.inputs.modify index fun w => { w with connector := c }) = e.inputs := by
    refine List.ext_getElem? fun i => ?_
    rw [List.getElem?_modify]
    by_cases hi : index = i
    · subst hi
      rw [Expression.inputConnectors, List.getElem?_map, Option.map_eq_some_iff] at h
      obtain ⟨w, hw, rfl⟩ := h
      simp [hw]
    · simp [hi]
  exact e.withInputs_congr hsame (List.length_modify ..) rfl

/-- An operand that is rewired twice ends up where it was sent last. -/
theorem modifyWire_input_twice (e : Expression) (index : Nat) (c d : ConnectorId) :
    ((e.modifyWire .input index fun w => { w with connector := c }).modifyWire .input index
      fun w => { w with connector := d }) =
        e.modifyWire .input index fun w => { w with connector := d } :=
  e.withInputs_congr (List.modify_modify_eq _ _ index e.inputs) (by simp) (by simp)

/-! ## Belonging to a node and a number -/

/-- The expression is what its node asks for, under the number it has. -/
structure Installed (e : Expression) (id : ExprId) (provider : Option Provider) : Prop where
  id : e.id = some id
  side : e.role.map BoundaryRole.side = e.node.op.side?
  strategy : e.strategy = strategyFor provider e.node
  loops : e.loops.Nodup

theorem Installed.retouched {e e' : Expression} {id : ExprId} (he : e.Installed id provider)
    (h : e.Retouched e') : e'.Installed id provider where
  id := h.id.trans he.id
  side := by rw [h.role, h.node]; exact he.side
  strategy := by rw [h.strategy, h.node]; exact he.strategy
  loops := h.loops he.loops

end TensorIR.Expression
