import TensorIR.Node

/-!
# Models

A model is the graph before it is lowered: nodes in an order in which every operand refers to an
output of an earlier node. `add?` is the only way to extend one, and it refuses a node that would
break this; `WellFormed` says what holds of every model built that way.
-/

set_option autoImplicit false

namespace TensorIR

/-- A node with the outputs it reads. -/
structure ModelNode where
  node : Node
  inputs : List OutputRef
deriving DecidableEq

/-- A graph of operations in dependency order. -/
structure Model where
  nodes : List ModelNode
deriving DecidableEq

/-- Why a node does not fit into a model. -/
inductive ModelError where
  /-- The node takes another number of operands. -/
  | inputCount (node : String) (expected got : Nat)
  /-- There is no such earlier node. -/
  | unknownProducer (node : String) (input : OutputRef)
  /-- The earlier node has no such output. -/
  | portOutOfRange (node producer : String) (port count : Nat)
deriving DecidableEq, Repr

def ModelError.message : ModelError → String
  | .inputCount node expected got => s!"'{node}' expects {expected} inputs, got {got}"
  | .unknownProducer node input => s!"'{node}' reads {input.render}, which is not an earlier node"
  | .portOutOfRange node producer port count =>
    s!"'{node}' reads output {port} of '{producer}', which has {count} outputs"

namespace Model

/-- The model without nodes. -/
def empty : Model := ⟨[]⟩

/-- The reference names an output of a node of the model. -/
def checkRef (m : Model) (reader : String) (ref : OutputRef) : Except ModelError Unit :=
  match m.nodes[ref.node]? with
  | none => .error (.unknownProducer reader ref)
  | some producer =>
    if ref.port < producer.node.outputCount then .ok ()
    else .error (.portOutOfRange reader producer.node.name ref.port producer.node.outputCount)

/-- All references name outputs of nodes of the model. -/
def checkRefs (m : Model) (reader : String) : List OutputRef → Except ModelError Unit
  | [] => .ok ()
  | ref :: refs => do
    m.checkRef reader ref
    m.checkRefs reader refs

/-- Append a node. -/
def add? (m : Model) (node : Node) (inputs : List OutputRef) : Except ModelError Model :=
  if inputs.length = node.inputCount then
    (m.checkRefs node.name inputs).map fun _ => ⟨m.nodes ++ [⟨node, inputs⟩]⟩
  else .error (.inputCount node.name node.inputCount inputs.length)

/-- The reference names an output of one of the first nodes. -/
def Resolves (nodes : List ModelNode) (ref : OutputRef) : Prop :=
  ∃ producer, nodes[ref.node]? = some producer ∧ ref.port < producer.node.outputCount

/-- Every node has its operands, and they are outputs of earlier nodes. -/
def WellFormed (m : Model) : Prop :=
  ∀ k n, m.nodes[k]? = some n →
    n.inputs.length = n.node.inputCount ∧ ∀ ref ∈ n.inputs, Resolves (m.nodes.take k) ref

/-- The inputs of the graph in order. -/
def parameters (m : Model) : List ModelNode :=
  m.nodes.filter fun n => match n.node.op with
    | .parameter _ => true
    | _ => false

/-- The outputs of the graph in order. -/
def results (m : Model) : List ModelNode := m.nodes.filter fun n => n.node.op = .result

/-- One line for the node at a position. -/
def renderNode (index : Nat) (n : ModelNode) : String :=
  let operands := ", ".intercalate (n.inputs.map OutputRef.render)
  s!"n{index} {n.node.name} = {n.node.op.render}({operands})\n"

/-- One line per node. -/
def render (m : Model) : String :=
  String.join (m.nodes.zipIdx.map fun (n, i) => renderNode i n)

end Model

end TensorIR
