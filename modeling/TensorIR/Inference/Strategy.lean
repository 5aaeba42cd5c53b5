import TensorIR.Node

/-!
# Shape inference of one operation

A strategy computes the shapes of an operation's outputs from the shapes of its operands, all at
once. It may fail, and says why; it may also decline to answer, which is no failure of its own but
counts as one for whoever needed the shapes.

A provider of strategies knows some operations and not others. Providers are tried in order
(`Provider.orElse`), so a user's provider can take precedence over the built-in rules and leave to
them what it does not know.
-/

set_option autoImplicit false

namespace TensorIR

/-- Why no output shapes could be computed. -/
inductive ShapeError where
  /-- The operation takes another number of operands. -/
  | inputCount (expected got : Nat)
  /-- The operands do not fit each other. -/
  | incompatible (lhs rhs : Shape)
  /-- The operand has too few dimensions. -/
  | rank (shape : Shape) (minRank : Nat)
  /-- The operand has no such axis. -/
  | axis (axis : Nat) (shape : Shape)
  /-- The strategy declined to answer. -/
  | status
  /-- The strategy answered for another number of outputs. -/
  | outputCount (expected got : Nat)
  /-- No provider knows the operation. -/
  | unregistered (typeName : String)
  /-- There is no shape to begin with. -/
  | nothingToBroadcast
  /-- A reason of the strategy's own. -/
  | other (text : String)
deriving DecidableEq, Repr

/-- The reason in words. -/
def ShapeError.message : ShapeError → String
  | .inputCount expected got => s!"expected {expected} input shapes, got {got}"
  | .incompatible lhs rhs => s!"incompatible shapes {lhs.render} and {rhs.render}"
  | .rank shape minRank => s!"shape {shape.render} must have rank >= {minRank}"
  | .axis index shape => s!"axis {index} out of range for shape {shape.render}"
  | .status => "did not return success status"
  | .outputCount expected got => s!"returned {got} output shapes for {expected} output ports"
  | .unregistered typeName =>
    s!"no shape inference registered for operation type '{typeName}'"
  | .nothingToBroadcast => "no input shapes to broadcast"
  | .other text => text

/-- What a strategy answers. -/
inductive Inference where
  /-- The shapes of the outputs. -/
  | success (shapes : List Shape)
  /-- No answer; the shapes are not to be used. -/
  | skip (shapes : List Shape)
deriving DecidableEq, Repr

/-- A way to compute output shapes from operand shapes. -/
abbrev Strategy := List Shape → Except ShapeError Inference

/-- A source of strategies, which may not know every operation. -/
abbrev Provider := Node → Option Strategy

/-- Ask the first provider, and the second about what the first does not know. -/
def Provider.orElse (first : Option Provider) (second : Provider) : Provider := fun node =>
  match first with
  | none => second node
  | some provide => (provide node).or (second node)

end TensorIR
