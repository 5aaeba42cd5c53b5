import TensorIR.Shape
import TensorIR.Binary64.Text

/-!
# Operations

The catalogue of tensor operations. Each has a fixed number of operands and of outputs, a name as
it is spelled in a program, and its parameters. Two of them are the boundary of a graph: a
parameter feeds a tensor in, a result hands one out. A custom operation brings its own name and
counts and means nothing to the catalogue beyond them.

The arity decides everything that is indexed by ports later on, so it is stated here, once, as
`inputCount` and `outputCount`.
-/

set_option autoImplicit false

namespace TensorIR

/-- Functions applied to every element of one tensor. -/
inductive UnaryOp where
  | relu
  | exp
  | neg
  | sqrt
deriving DecidableEq, Repr

/-- Functions applied to corresponding elements of two tensors. -/
inductive BinaryOp where
  | add
  | subtract
  | multiply
  | divide
  | maximum
deriving DecidableEq, Repr

/-- Functions that combine all elements along one axis. -/
inductive Reduction where
  | sum
  | max
deriving DecidableEq, Repr

/-- A tensor operation with its parameters. -/
inductive Op where
  /-- An input of the graph, with its declared shape. -/
  | parameter (shape : Shape)
  /-- An output of the graph. -/
  | result
  /-- A constant with one element. -/
  | scalar (value : Binary64)
  | unary (function : UnaryOp)
  | binary (function : BinaryOp)
  /-- Repeats the elements along the innermost axis, to the given dimension. -/
  | broadcastMove (dim : Dim)
  | reduce (reduction : Reduction) (axis : Nat)
  | matmul
  | load
  | store
  /-- An operation from outside the catalogue. -/
  | custom (name : String) (inputs outputs : Nat)
deriving DecidableEq, Repr

def UnaryOp.name : UnaryOp → String
  | .relu => "Relu"
  | .exp => "Exp"
  | .neg => "Neg"
  | .sqrt => "Sqrt"

def BinaryOp.name : BinaryOp → String
  | .add => "Add"
  | .subtract => "Subtract"
  | .multiply => "Multiply"
  | .divide => "Divide"
  | .maximum => "Maximum"

def Reduction.name : Reduction → String
  | .sum => "ReduceSum"
  | .max => "ReduceMax"

namespace Op

/-- The number of operands. -/
def inputCount : Op → Nat
  | .parameter _ | .scalar _ => 0
  | .result | .unary _ | .broadcastMove _ | .reduce _ _ | .load | .store => 1
  | .binary _ | .matmul => 2
  | .custom _ inputs _ => inputs

/-- The number of tensors produced. -/
def outputCount : Op → Nat
  | .result => 0
  | .custom _ _ outputs => outputs
  | _ => 1

/-- The name of the operation as a program spells it. -/
def typeName : Op → String
  | .parameter _ => "Parameter"
  | .result => "Result"
  | .scalar _ => "Scalar"
  | .unary f => f.name
  | .binary f => f.name
  | .broadcastMove _ => "BroadcastMove"
  | .reduce r _ => r.name
  | .matmul => "MatMul"
  | .load => "Load"
  | .store => "Store"
  | .custom name _ _ => name

/-- The operation belongs to the boundary of the graph. -/
def isBoundary : Op → Bool
  | .parameter _ | .result => true
  | _ => false

/-- The operation works element by element. -/
def isElementwise : Op → Bool
  | .unary _ | .binary _ => true
  | _ => false

/-- The operation with the parameters that distinguish it from others of its name. The dimension of
a broadcast is written as its word, also when it is dynamic. -/
def render (op : Op) : String :=
  match op with
  | .parameter shape => s!"Parameter[shape={shape.render}]"
  | .scalar value => s!"Scalar[value={value.render}]"
  | .broadcastMove dim => s!"BroadcastMove[dim={dim.code}]"
  | .reduce r axis => s!"{r.name}[axis={axis}]"
  | _ => op.typeName

end Op

end TensorIR
