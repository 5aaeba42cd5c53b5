import TensorIR.Error
import TensorIR.Port.Descriptor
import TensorIR.Target
import TensorIR.Inference.Builtin

/-!
# Expressions

An expression is a node put to work: every operand and every output has a connector and a
descriptor, kept together as one wire, so the two cannot get out of step. There is one wire per
operand and per output of the node, which the type records; everything that changes wires changes
them in place.

An expression belongs to no body until it is installed, and until then its ports cannot be named.
Its strategy for shape inference is chosen once, when it is made.
-/

set_option autoImplicit false

namespace TensorIR

/-- What stands at a port: the connector it is attached to and what is known about the tensor. -/
structure Wire where
  connector : ConnectorId
  descriptor : Descriptor
deriving DecidableEq, Repr

/-- The place of a parameter or result among the inputs or outputs of its graph. -/
structure BoundaryRole where
  side : Direction
  ordinal : Int
deriving DecidableEq, Repr

/-- The side of the graph that an operation stands on. -/
def Op.side? : Op → Option Direction
  | .parameter _ => some .input
  | .result => some .output
  | _ => none

/-- A node with the wires at its ports and what passes have attached to it. -/
structure Expression where
  /-- Its number in the body that holds it. -/
  id : Option ExprId
  node : Node
  inputs : List Wire
  outputs : List Wire
  emitter : Option Emitter
  /-- The loops it is scheduled in, outermost first. -/
  loops : List Nat
  strategy : Option Strategy
  role : Option BoundaryRole
  length_inputs : inputs.length = node.inputCount
  length_outputs : outputs.length = node.outputCount

namespace Expression

/-! ## Making one -/

/-- Wires from connectors and declared shapes. -/
def wires (connectors : List ConnectorId) (shapes : List Shape) : List Wire :=
  connectors.zipWith (fun c s => ⟨c, .ofShape s⟩) shapes

theorem length_wires {connectors : List ConnectorId} {shapes : List Shape}
    (h : connectors.length = shapes.length) : (wires connectors shapes).length = shapes.length := by
  simp [wires, h]

/-- An expression for a node between the given connectors. Their numbers are checked, operands
before outputs. -/
def make (node : Node) (inputs outputs : List ConnectorId) (user : Option Provider) :
    Except IrError Expression :=
  if hin : inputs.length = node.inputCount then
    if hout : outputs.length = node.outputCount then
      .ok {
        id := none
        node := node
        inputs := wires inputs node.inputShapes
        outputs := wires outputs node.outputShapes
        emitter := none
        loops := []
        strategy := strategyFor user node
        role := none
        length_inputs := by
          rw [length_wires (by rw [hin, node.length_inputShapes]), node.length_inputShapes]
        length_outputs := by
          have := node.length_outputShapes
          rw [length_wires (by rw [hout, Node.outputCount, this]), this, Node.outputCount] }
    else .error (.arityMismatch .outputConnectors node.outputCount outputs.length)
  else .error (.arityMismatch .inputConnectors node.inputCount inputs.length)

/-- An expression for a parameter or result, with its ordinal. -/
def makeBoundary (node : Node) (ordinal : Int) (inputs outputs : List ConnectorId)
    (user : Option Provider) : Except IrError Expression :=
  match node.op.side? with
  | none => .error (.invalidState (.notBoundary node.name node.op.typeName))
  | some side =>
    (make node inputs outputs user).map fun e => { e with role := some ⟨side, ordinal⟩ }

/-- Give the expression its number. -/
def install (e : Expression) (id : ExprId) : Expression := { e with id := some id }

/-! ## Ports -/

/-- The wires of one direction. -/
def ports (e : Expression) : Direction → List Wire
  | .input => e.inputs
  | .output => e.outputs

/-- The connectors that the operands read. -/
def inputConnectors (e : Expression) : List ConnectorId := e.inputs.map Wire.connector

/-- The connectors that the outputs feed. -/
def outputConnectors (e : Expression) : List ConnectorId := e.outputs.map Wire.connector

/-- The wire at a port. -/
def wire (e : Expression) (direction : Direction) (index : Nat) : Except IrError Wire :=
  match (e.ports direction)[index]? with
  | some w => .ok w
  | none => .error (.outOfRange direction index (e.ports direction).length)

/-- The connector at a port. -/
def connector (e : Expression) (direction : Direction) (index : Nat) : Except IrError ConnectorId :=
  (e.wire direction index).map Wire.connector

/-- The descriptor at a port. -/
def descriptor (e : Expression) (direction : Direction) (index : Nat) :
    Except IrError Descriptor :=
  (e.wire direction index).map Wire.descriptor

/-- The name of a port, once the expression is installed. -/
def port (e : Expression) (direction : Direction) (index : Nat) : Except IrError Port :=
  match e.id with
  | none => .error (.invalidState .notInstalled)
  | some id => (e.wire direction index).map fun _ => ⟨id, direction, index⟩

/-! ## Changing wires -/

/-- The expression with other wires at its operands. -/
def withInputs (e : Expression) (ws : List Wire) (h : ws.length = e.inputs.length) : Expression :=
  { e with inputs := ws, length_inputs := h.trans e.length_inputs }

/-- The expression with other wires at its outputs. -/
def withOutputs (e : Expression) (ws : List Wire) (h : ws.length = e.outputs.length) : Expression :=
  { e with outputs := ws, length_outputs := h.trans e.length_outputs }

/-- Change the wire at a port, if there is one. -/
def modifyWire (e : Expression) (direction : Direction) (index : Nat) (f : Wire → Wire) :
    Expression :=
  match direction with
  | .input => e.withInputs (e.inputs.modify index f) (List.length_modify ..)
  | .output => e.withOutputs (e.outputs.modify index f) (List.length_modify ..)

/-- Change the descriptor at a port. -/
def modifyDescriptor (e : Expression) (direction : Direction) (index : Nat)
    (f : Descriptor → Descriptor) : Except IrError Expression :=
  (e.wire direction index).map fun _ =>
    e.modifyWire direction index fun w => { w with descriptor := f w.descriptor }

/-- Let an operand read another connector. Who reads what is not recorded here but in the
connectors, which are not told. The answer is the connector that was read before. -/
def rewire (e : Expression) (index : Nat) (target : ConnectorId) :
    Except IrError (ConnectorId × Expression) :=
  (e.wire .input index).map fun w =>
    (w.connector, e.modifyWire .input index fun w => { w with connector := target })

/-! ## In text -/

/-- A wire by its connector and what is known about the tensor. -/
def renderWire (w : Wire) : String := s!"{w.connector.render}:{w.descriptor.render}"

/-- The role by its side and ordinal. -/
def renderRole (role : BoundaryRole) : String :=
  s!"{role.side.name}#{role.ordinal}"

/-- One line: the number, the node, its operands and outputs, its loops and its role. -/
def render (e : Expression) : String :=
  let id := match e.id with
    | some id => id.render
    | none => "e?"
  let operands := ", ".intercalate (e.inputs.map renderWire)
  let outputs := if e.outputs.isEmpty then "" else
    " -> " ++ ", ".intercalate (e.outputs.map renderWire)
  let loops := if e.loops.isEmpty then "" else s!" loops={Descriptor.renderNumbers e.loops}"
  let role := match e.role with
    | some role => s!" io={renderRole role}"
    | none => ""
  s!"{id} {e.node.name} = {e.node.op.render}({operands})" ++ outputs ++ loops ++ role

end Expression

end TensorIR
