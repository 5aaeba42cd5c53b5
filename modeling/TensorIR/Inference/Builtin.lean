import TensorIR.Inference.Strategy

/-!
# The built-in shape rules

Every operation of the catalogue has one rule, chosen by the operation alone; custom operations
have none. A rule checks that it got the operands it needs and answers with one shape per output of
the operations it serves.
-/

set_option autoImplicit false

namespace TensorIR

/-- The built-in ways to find output shapes. -/
inductive ShapeRule where
  /-- The output has the shape of the first operand. -/
  | passThrough
  /-- The operands, of the given number, broadcast into one shape. -/
  | broadcast (inputs : Nat)
  /-- There are no outputs. -/
  | nothing
  /-- The output has one element. -/
  | singleElement
  /-- The output has a shape known beforehand. -/
  | declared (shape : Shape)
  /-- The innermost dimension becomes the given one. -/
  | innermost (dim : Dim)
  /-- The dimension of the axis becomes one. -/
  | reduce (axis : Nat)
  /-- A product of matrices, over broadcast outer dimensions. -/
  | matmul
deriving DecidableEq, Repr

namespace ShapeRule

/-- The rule of an operation. -/
def ofOp? : Op → Option ShapeRule
  | .parameter shape => some (.declared shape)
  | .result => some .nothing
  | .scalar _ => some .singleElement
  | .unary _ | .load | .store => some .passThrough
  | .binary _ => some (.broadcast 2)
  | .broadcastMove dim => some (.innermost dim)
  | .reduce _ axis => some (.reduce axis)
  | .matmul => some .matmul
  | .custom _ _ _ => none

/-- Broadcast further shapes into one, from left to right; the error shows how far it came. -/
def broadcastAll : Shape → List Shape → Except ShapeError Shape
  | out, [] => .ok out
  | out, shape :: shapes =>
    match out.broadcast? shape with
    | some merged => broadcastAll merged shapes
    | none => .error (.incompatible out shape)

/-- The contracted dimensions of two matrices fit: they are equal, or one is dynamic. -/
def contracts (a b : Dim) : Bool := a = b || a = .dynamic || b = .dynamic

/-- The shape of a product of matrices. The operands are given from the innermost dimension
outwards: rows and columns first, outer dimensions after them. -/
def product (a b : Shape) : Except ShapeError Shape :=
  match a.dims.reverse, b.dims.reverse with
  | ka :: m :: batchA, n :: kb :: batchB =>
    if contracts ka kb then
      match Shape.mergeInner batchA batchB with
      | some batch => .ok ⟨(n :: m :: batch).reverse⟩
      | none => .error (.incompatible a b)
    else .error (.incompatible a b)
  | _ :: _ :: _, _ => .error (.rank b 2)
  | _, _ => .error (.rank a 2)

/-- The answer of a rule to the shapes of the operands. -/
def infer : ShapeRule → Strategy
  | .passThrough, shape :: _ => .ok (.success [shape])
  | .passThrough, [] => .error (.inputCount 1 0)
  | .broadcast inputs, shapes =>
    if shapes.length ≠ inputs then .error (.inputCount inputs shapes.length)
    else
      match shapes with
      | [] => .error .nothingToBroadcast
      | first :: others => (broadcastAll first others).map fun out => .success [out]
  | .nothing, _ => .ok (.success [])
  | .singleElement, _ => .ok (.success [⟨[.one]⟩])
  | .declared shape, _ => .ok (.success [shape])
  | .innermost dim, [shape] =>
    if shape.rank = 0 then .error (.rank shape 1)
    else .ok (.success [⟨shape.dims.set (shape.rank - 1) dim⟩])
  | .innermost _, shapes => .error (.inputCount 1 shapes.length)
  | .reduce axis, [shape] =>
    if shape.rank ≤ axis then .error (.axis axis shape)
    else .ok (.success [⟨shape.dims.set axis .one⟩])
  | .reduce _, shapes => .error (.inputCount 1 shapes.length)
  | .matmul, [a, b] => (product a b).map fun out => .success [out]
  | .matmul, shapes => .error (.inputCount 2 shapes.length)

/-- The built-in rules as a provider. -/
def provider : Provider := fun node => (ofOp? node.op).map infer

end ShapeRule

/-- The strategy for a node: the user's, if there is one, or else the built-in rule. -/
def strategyFor (user : Option Provider) : Provider := Provider.orElse user ShapeRule.provider

end TensorIR
