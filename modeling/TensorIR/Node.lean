import TensorIR.Op

/-!
# Nodes

A node is one operation of a graph under a name that diagnostics can mention. Its operands have no
shape until something is known about them. Its outputs may be declared: a parameter's output has
the parameter's shape from the start, and any output can be given a shape by hand
(`withOutputShape`), which is ignored when there is no such output.

There is one declared shape per output, and the type says so.
-/

set_option autoImplicit false

namespace TensorIR

/-- An output of a node, the node being known by its position in a graph. -/
structure OutputRef where
  node : Nat
  port : Nat
deriving DecidableEq, Repr

def OutputRef.render (r : OutputRef) : String := s!"n{r.node}.{r.port}"

/-- A named operation with the declared shapes of its outputs. -/
structure Node where
  name : String
  op : Op
  outputShapes : List Shape
  length_outputShapes : outputShapes.length = op.outputCount
deriving DecidableEq

namespace Node

/-- What an operation declares about its outputs by itself. -/
def declared : Op → List Shape
  | .parameter shape => [shape]
  | op => List.replicate op.outputCount Shape.scalar

/-- A node that declares no more than its operation does. -/
def make (name : String) (op : Op) : Node where
  name := name
  op := op
  outputShapes := declared op
  length_outputShapes := by cases op <;> simp [declared, Op.outputCount]

/-- Declare the shape of one output. -/
def withOutputShape (node : Node) (index : Nat) (shape : Shape) : Node where
  name := node.name
  op := node.op
  outputShapes := node.outputShapes.set index shape
  length_outputShapes := by rw [List.length_set, node.length_outputShapes]

/-- The number of operands. -/
def inputCount (node : Node) : Nat := node.op.inputCount

/-- The number of outputs. -/
def outputCount (node : Node) : Nat := node.op.outputCount

/-- The shapes of the operands, of which nothing is known yet. -/
def inputShapes (node : Node) : List Shape := List.replicate node.inputCount Shape.scalar

@[simp] theorem length_inputShapes (node : Node) : node.inputShapes.length = node.inputCount :=
  List.length_replicate

@[simp] theorem inputCount_make (name : String) (op : Op) :
    (make name op).inputCount = op.inputCount := rfl

@[simp] theorem outputCount_make (name : String) (op : Op) :
    (make name op).outputCount = op.outputCount := rfl

end Node

end TensorIR
