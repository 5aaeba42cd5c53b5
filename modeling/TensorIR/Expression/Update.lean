import TensorIR.Expression

/-!
# Working on an expression

What passes do to an expression: assign registers, put it into loops, attach an emitter, and bring
its shapes up to date. Each of these either happens as a whole or not at all, with one exception
that is wanted: an update of shapes first takes over the shapes of the operands, and a failing
strategy leaves those in place (`updateShapes`).
-/

set_option autoImplicit false

namespace TensorIR

/-- The registers of all ports of an expression, by direction and in order. -/
structure RegisterAssignment where
  inputs : List (Option Register)
  outputs : List (Option Register)
deriving DecidableEq, Repr

namespace Expression

/-! ## Registers -/

/-- The registers that the ports have. -/
def registers (e : Expression) : RegisterAssignment where
  inputs := e.inputs.map fun w => w.descriptor.register
  outputs := e.outputs.map fun w => w.descriptor.register

/-- Wires with registers assigned in order; wires that are left over keep theirs. -/
def assignRegisters : List Wire → List (Option Register) → List Wire
  | w :: ws, r :: rs =>
    { w with descriptor := { w.descriptor with register := r } } :: assignRegisters ws rs
  | ws, _ => ws

theorem length_assignRegisters (ws : List Wire) (rs : List (Option Register)) :
    (assignRegisters ws rs).length = ws.length := by
  fun_induction assignRegisters ws rs <;> simp_all

/-- Assign registers to all ports. Both numbers are checked before anything is assigned. -/
def withRegisters (e : Expression) (r : RegisterAssignment) : Except IrError Expression :=
  if r.inputs.length ≠ e.inputs.length then
    .error (.arityMismatch .inputRegisters e.inputs.length r.inputs.length)
  else if r.outputs.length ≠ e.outputs.length then
    .error (.arityMismatch .outputRegisters e.outputs.length r.outputs.length)
  else
    .ok ((e.withInputs (assignRegisters e.inputs r.inputs) (length_assignRegisters ..)).withOutputs
      (assignRegisters e.outputs r.outputs) (length_assignRegisters ..))

/-! ## Loops -/

/-- The first number that occurred before, where `seen` occurred already. -/
def firstRepeated (seen : List Nat) : List Nat → Option Nat
  | [] => none
  | loop :: loops => if loop ∈ seen then some loop else firstRepeated (loop :: seen) loops

/-- Put the expression into loops, each listed once. -/
def withLoops (e : Expression) (loops : List Nat) : Except IrError Expression :=
  match firstRepeated [] loops with
  | some loop => .error (.duplicateLoopId loop)
  | none => .ok { e with loops := loops }

/-! ## Emitters -/

/-- Attach an emitter, or detach the one there is. -/
def withEmitter (e : Expression) (emitter : Option Emitter) : Expression :=
  { e with emitter := emitter }

/-- Attach the emitter that a target provides. -/
def initEmitter (e : Expression) (target : Target) : Except IrError Expression :=
  if target.supports e.node.op then
    match target.emitter? e.node with
    | some emitter => .ok (e.withEmitter (some emitter))
    | none => .error (.invalidState (.noEmitter target.name e.node.name))
  else .error (.invalidState (.unsupported target.name e.node.name e.node.op.typeName))

/-! ## Checking -/

/-- Check what the type does not already guarantee: no loop is listed twice. -/
def validate (e : Expression) : Except IrError Unit :=
  match firstRepeated [] e.loops with
  | some loop => .error (.violated (.repeatedLoop loop))
  | none => .ok ()

/-! ## Shapes -/

/-- Wires with new shapes in order; wires that are left over keep theirs. -/
def assignShapes : List Wire → List Shape → List Wire
  | w :: ws, s :: ss => { w with descriptor := w.descriptor.withShape s } :: assignShapes ws ss
  | ws, _ => ws

theorem length_assignShapes (ws : List Wire) (ss : List Shape) :
    (assignShapes ws ss).length = ws.length := by
  fun_induction assignShapes ws ss <;> simp_all

/-- The expression with new shapes at its operands. -/
def withInputShapes (e : Expression) (shapes : List Shape) : Expression :=
  e.withInputs (assignShapes e.inputs shapes) (length_assignShapes ..)

/-- The expression with new shapes at its outputs. -/
def withOutputShapes (e : Expression) (shapes : List Shape) : Expression :=
  e.withOutputs (assignShapes e.outputs shapes) (length_assignShapes ..)

/-- The shapes that a strategy finds for a number of outputs; an answer counts only if it is a
success with one shape per output. -/
def runStrategy (strategy : Strategy) (outputs : Nat) (shapes : List Shape) :
    Except ShapeError (List Shape) :=
  match strategy shapes with
  | .error cause => .error cause
  | .ok (.skip _) => .error .status
  | .ok (.success out) =>
    if out.length = outputs then .ok out else .error (.outputCount outputs out.length)

/-- Take over the shapes of the operands and infer those of the outputs. The number of shapes and
the presence of a strategy are checked first; after that the operands keep their new shapes even if
the strategy fails, and the outputs change only if it succeeds. -/
def updateShapes (e : Expression) (shapes : List Shape) : Except IrError Unit × Expression :=
  if shapes.length ≠ e.inputs.length then
    (.error (.arityMismatch .inputShapeBatch e.inputs.length shapes.length), e)
  else
    match e.strategy with
    | none => (.error (.shapeInference e.node.name (.unregistered e.node.op.typeName)), e)
    | some strategy =>
      let fed := e.withInputShapes shapes
      match runStrategy strategy e.outputs.length shapes with
      | .error cause => (.error (.shapeInference e.node.name cause), fed)
      | .ok out => (.ok (), fed.withOutputShapes out)

end Expression

end TensorIR
