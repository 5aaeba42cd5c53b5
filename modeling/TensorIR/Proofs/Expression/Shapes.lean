import TensorIR.Proofs.Expression.Making

/-!
# Shapes of an expression

The shapes at the ports of an expression, what its strategy makes of the operands' shapes
(`attempt`), and what an update leaves behind: the operands have the new shapes, and the outputs
those that the strategy found.
-/

set_option autoImplicit false

namespace TensorIR.Expression

variable {e e' : Expression} {operands out : List Shape}

/-- The shapes of the operands. -/
def inputShapes (e : Expression) : List Shape := e.inputs.map fun w => w.descriptor.shape

/-- The shapes of the outputs. -/
def outputShapes (e : Expression) : List Shape := e.outputs.map fun w => w.descriptor.shape

/-- What the strategy answers about the outputs, if there is a strategy. An answer with a wrong
number of shapes is a failure. -/
def attempt (e : Expression) (operands : List Shape) : Except ShapeError (List Shape) :=
  match e.strategy with
  | none => .error (.unregistered e.node.op.typeName)
  | some strategy => runStrategy strategy e.outputs.length operands

theorem runStrategy_eq_ok_iff {strategy : Strategy} {count : Nat} :
    runStrategy strategy count operands = .ok out ↔
      strategy operands = .ok (.success out) ∧ out.length = count := by
  unfold runStrategy
  cases strategy operands with
  | error cause => simp
  | ok answer =>
    cases answer with
    | skip => simp
    | success found =>
      by_cases h : found.length = count
      · simp only [h, if_true, Except.ok.injEq, Inference.success.injEq]
        exact ⟨fun heq => ⟨heq, heq ▸ h⟩, And.left⟩
      · simp only [h, if_false, reduceCtorEq, Except.ok.injEq, Inference.success.injEq, false_iff]
        exact fun ⟨heq, hcount⟩ => h (heq ▸ hcount)

theorem attempt_eq_ok_iff :
    e.attempt operands = .ok out ↔ ∃ strategy, e.strategy = some strategy ∧
      strategy operands = .ok (.success out) ∧ out.length = e.outputs.length := by
  unfold attempt
  cases e.strategy with
  | none => simp
  | some strategy => simp [runStrategy_eq_ok_iff]

theorem Retouched.attempt (h : e.Retouched e') (operands : List Shape) :
    e'.attempt operands = e.attempt operands := by
  have hlength : e'.outputs.length = e.outputs.length := by
    have := congrArg List.length h.outputs
    simpa [outputConnectors] using this
  rw [Expression.attempt, Expression.attempt, h.strategy, h.node, hlength]

/-- What is answered depends on the operation and the strategy only. -/
theorem attempt_congr (hop : e'.node.op = e.node.op) (hstrategy : e'.strategy = e.strategy)
    (operands : List Shape) : e'.attempt operands = e.attempt operands := by
  have hlength : e'.outputs.length = e.outputs.length := by
    rw [e'.length_outputs, e.length_outputs, Node.outputCount, Node.outputCount, hop]
  rw [attempt, attempt, hop, hstrategy, hlength]

theorem map_shape_wires {connectors : List ConnectorId} {shapes : List Shape}
    (h : connectors.length = shapes.length) :
    (wires connectors shapes).map (fun w => w.descriptor.shape) = shapes := by
  induction connectors generalizing shapes with
  | nil =>
    obtain rfl := List.eq_nil_of_length_eq_zero h.symm
    rfl
  | cons c cs ih =>
    cases shapes with
    | nil => cases h
    | cons shape shapes => exact congrArg (shape :: ·) (ih (Nat.succ.inj h))

/-- The outputs of a fresh expression have the shapes that its node declares. -/
theorem Made.outputShapes {node : Node} {inputs outputs : List ConnectorId}
    {provider : Option Provider} {role : Option BoundaryRole}
    (h : e.Made node inputs outputs provider role) (hout : outputs.length = node.outputCount) :
    e.outputShapes = node.outputShapes := by
  rw [Expression.outputShapes, h.outputs, map_shape_wires]
  rw [hout, node.length_outputShapes, Node.outputCount]

/-- Nothing is known of the operands of a fresh expression. -/
theorem Made.inputShapes {node : Node} {inputs outputs : List ConnectorId}
    {provider : Option Provider} {role : Option BoundaryRole}
    (h : e.Made node inputs outputs provider role) (hin : inputs.length = node.inputCount) :
    e.inputShapes = node.inputShapes := by
  rw [Expression.inputShapes, h.inputs, map_shape_wires]
  rw [hin, node.length_inputShapes]

/-! ## After an update -/

theorem map_shape_assignShapes {ws : List Wire} {ss : List Shape} (h : ss.length = ws.length) :
    (assignShapes ws ss).map (fun w => w.descriptor.shape) = ss := by
  induction ws generalizing ss with
  | nil =>
    obtain rfl := List.eq_nil_of_length_eq_zero h
    rfl
  | cons w ws ih =>
    cases ss with
    | nil => cases h
    | cons s ss =>
      rw [assignShapes, List.map_cons, ih (Nat.succ.inj h), Descriptor.shape_withShape]

/-- What an update of shapes leaves behind where it succeeds. -/
structure Updated (e : Expression) (operands out : List Shape) (e' : Expression) : Prop where
  retouched : e.Retouched e'
  inputShapes : e'.inputShapes = operands
  outputShapes : e'.outputShapes = out

theorem updated_withShapes (hin : operands.length = e.inputs.length)
    (hout : out.length = e.outputs.length) :
    e.Updated operands out ((e.withInputShapes operands).withOutputShapes out) where
  retouched :=
    (retouched_withInputShapes e operands).trans (retouched_withOutputShapes _ out)
  inputShapes := map_shape_assignShapes hin
  outputShapes := map_shape_assignShapes hout

theorem inputShapes_withInputShapes (hin : operands.length = e.inputs.length) :
    (e.withInputShapes operands).inputShapes = operands :=
  map_shape_assignShapes hin

/-- What an update of shapes leaves behind where it fails: without a strategy there is not even an
attempt, and otherwise the operands have their new shapes already. -/
structure Declined (e : Expression) (operands : List Shape) (e' : Expression) : Prop where
  retouched : e.Retouched e'
  outputs : e'.outputs = e.outputs
  unasked : e.strategy = none → e' = e
  fed : e.strategy ≠ none → e' = e.withInputShapes operands ∧ e'.inputShapes = operands

/-- An update fails for the reason that the strategy gives, or goes through. -/
theorem updateShapes_cases (hin : operands.length = e.inputs.length) :
    (∃ cause e', e.attempt operands = .error cause ∧
      e.updateShapes operands = (.error (.shapeInference e.node.name cause), e') ∧
      e.Declined operands e') ∨
    ∃ out e', e.attempt operands = .ok out ∧ e.updateShapes operands = (.ok (), e') ∧
      e.Updated operands out e' := by
  unfold attempt updateShapes
  rw [if_neg (not_not_intro hin)]
  cases hstrategy : e.strategy with
  | none =>
    exact .inl ⟨_, e, rfl, rfl, .refl e, rfl, fun _ => rfl, fun h => absurd hstrategy h⟩
  | some strategy =>
    cases hrun : runStrategy strategy e.outputs.length operands with
    | error cause =>
      refine .inl ⟨cause, e.withInputShapes operands, hrun, by simp only [hrun],
        retouched_withInputShapes e operands, rfl, fun h => ?_,
        fun _ => ⟨rfl, inputShapes_withInputShapes hin⟩⟩
      rw [hstrategy] at h
      cases h
    | ok out =>
      obtain ⟨-, hout⟩ := runStrategy_eq_ok_iff.mp hrun
      exact .inr ⟨out, _, hrun, by simp only [hrun], updated_withShapes hin hout⟩

/-! ## Looking at ports -/

theorem descriptor_eq_ok {direction : Direction} {index : Nat} {w : Wire}
    (hw : (e.ports direction)[index]? = some w) :
    e.descriptor direction index = .ok w.descriptor := by
  rw [descriptor, wire, hw]
  rfl

theorem modifyDescriptor_ok (hout : 0 < e.outputs.length) (f : Descriptor → Descriptor) :
    ∃ e', e.modifyDescriptor .output 0 f = .ok e' := by
  obtain ⟨w, ws, houtputs⟩ : ∃ w ws, e.outputs = w :: ws :=
    List.exists_cons_of_length_pos hout
  exact ⟨_, by simp only [modifyDescriptor, wire, ports, houtputs]; rfl⟩

/-- The output of an expression has the shape given to it. -/
theorem shape_of_modifyDescriptor {shape : Shape}
    (h : e.modifyDescriptor .output 0 (·.withShape shape) = .ok e') :
    (e'.descriptor .output 0).map Descriptor.shape = .ok shape := by
  obtain rfl := modifyDescriptor_eq_ok h
  cases houtputs : e.outputs with
  | nil => simp [modifyDescriptor, wire, ports, houtputs, Except.map] at h
  | cons w ws => simp [descriptor, wire, ports, modifyWire, withOutputs, houtputs, Except.map]

end TensorIR.Expression
