import TensorIR.Diagnostic
import TensorIR.Model

/-!
# Problems with statements, and what attributes say

A statement that is well formed as text may still make no sense: its operation may be unknown, an
attribute missing or of the wrong kind, a name undefined. All such problems are listed in one type
(`Problem`) with the report of each in one function.

The rest of this file reads attributes: the operation that a statement describes is computed from
its name and its attributes alone (`Statement.op?`), up to the first problem with them.
-/

set_option autoImplicit false

namespace TensorIR

/-- The kinds of attribute values that operations ask for. -/
inductive AttrKind where
  | count
  | number
  | name
  | dims
deriving DecidableEq, Repr

/-- The kind in words. -/
def AttrKind.description : AttrKind → String
  | .count => "a non-negative integer"
  | .number => "a number"
  | .name => "an identifier"
  | .dims => "a dimension list like [2, ?]"

/-- The most outputs that a custom operation may have. -/
def maxCustomOutputs : Nat := 64

/-- What can be wrong with a statement, or odd about it. -/
inductive Problem where
  | unknownOperation (op : Ident)
  | missingAttribute (op : Ident) (attr : String)
  | illTyped (op attr : String) (wanted : AttrKind) (span : Span)
  | negativeDimension (span : Span)
  /-- A custom operation declares another number of operands than it gets. -/
  | customOperands (declared got : Nat) (span : Span)
  /-- A custom operation declares too many outputs. -/
  | customOutputs (declared : Nat) (span : Span)
  | ignoredAttribute (op : String) (attr : Ident)
  | undefinedValue (name : Ident)
  | operandCount (op : String) (expected got : Nat) (span : Span)
  | missingOutput (producer : String) (port count : Nat) (span : Span)
  | unknownProducer (node : String) (input : OutputRef) (span : Span)
  | unusableName (op : String) (span : Span)
  | definedTwice (name : Ident) (first : Span)
deriving DecidableEq, Repr

/-- The report of a problem. -/
def Problem.diagnostic : Problem → Diagnostic
  | .unknownOperation op => .error .unknownOperation op.span s!"unknown operation '{op.name}'"
  | .missingAttribute op attr =>
    .error .missingAttribute op.span s!"'{op.name}' requires attribute '{attr}'"
  | .illTyped op attr wanted span =>
    .error .illTypedAttribute span s!"attribute '{attr}' of '{op}' must be {wanted.description}"
  | .negativeDimension span => .error .illTypedAttribute span "dimensions must be non-negative"
  | .customOperands declared got span =>
    .error .operandCount span s!"'Custom' declares {declared} inputs, got {got} operands"
  | .customOutputs declared span =>
    .error .illTypedAttribute span
      s!"'Custom' declares {declared} outputs; at most {maxCustomOutputs} are supported"
  | .ignoredAttribute op attr =>
    .warning .ignoredAttribute attr.span s!"attribute '{attr.name}' is ignored by '{op}'"
  | .undefinedValue name =>
    { Diagnostic.error .undefinedValue name.span s!"undefined value '{name.name}'" with
      hint := some "values must be defined before they are used" }
  | .operandCount op expected got span =>
    .error .operandCount span s!"'{op}' takes {expected} operands, got {got}"
  | .missingOutput producer port count span =>
    .error .missingOutput span s!"'{producer}' has {count} outputs; output {port} does not exist"
  | .unknownProducer node input span =>
    .error .undefinedValue span (ModelError.unknownProducer node input).message
  | .unusableName op span =>
    .warning .unusableName span s!"'{op}' has no outputs; the bound name is unusable"
  | .definedTwice name first =>
    { Diagnostic.error .valueDefinedTwice name.span s!"value '{name.name}' is defined twice" with
      related := [⟨first, "first definition"⟩] }

namespace Statement

/-- The value of the first attribute of a name. -/
def attr (s : Statement) (name : String) : Except Problem AttrValue :=
  match s.attrs.find? (·.name.name = name) with
  | some a => .ok a.value
  | none => .error (.missingAttribute s.op name)

/-- The attribute is of another kind than wanted. -/
def illTyped (s : Statement) (name : String) (value : AttrValue) (wanted : AttrKind) : Problem :=
  .illTyped s.op.name name wanted value.span

/-- An attribute that counts something. -/
def countAttr (s : Statement) (name : String) : Except Problem Nat := do
  match ← s.attr name with
  | .int n span => if 0 ≤ n then return n.toNat else throw (s.illTyped name (.int n span) .count)
  | value => throw (s.illTyped name value .count)

/-- An attribute that is a scalar. -/
def numberAttr (s : Statement) (name : String) : Except Problem Binary64 := do
  match ← s.attr name with
  | .int n _ => return .ofInt n
  | .float v _ => return v
  | value => throw (s.illTyped name value .number)

/-- An attribute that is a name. -/
def nameAttr (s : Statement) (name : String) : Except Problem String := do
  match ← s.attr name with
  | .ident id => return id.name
  | value => throw (s.illTyped name value .name)

/-- The dimension that a literal denotes. -/
def dim : DimLiteral → Except Problem Dim
  | .fixed n span => if 0 ≤ n then .ok (.ofCode n.toNat) else .error (.negativeDimension span)
  | .dynamic _ => .ok .dynamic

/-- An attribute that is a shape. -/
def shapeAttr (s : Statement) (name : String) : Except Problem Shape := do
  match ← s.attr name with
  | .dims items _ => return ⟨← items.mapM dim⟩
  | value => throw (s.illTyped name value .dims)

/-- The custom operation that a statement describes. -/
def custom? (s : Statement) : Except Problem Op := do
  let name ← s.nameAttr "name"
  let inputs ← s.countAttr "inputs"
  let outputs ← s.countAttr "outputs"
  if inputs ≠ s.operands.length then
    throw (.customOperands inputs s.operands.length s.span)
  if maxCustomOutputs < outputs then throw (.customOutputs outputs s.span)
  return .custom name inputs outputs

/-- The operation that a statement describes. -/
def op? (s : Statement) : Except Problem Op :=
  match s.op.name with
  | "Parameter" => return .parameter (← s.shapeAttr "shape")
  | "Result" => return .result
  | "Scalar" => return .scalar (← s.numberAttr "value")
  | "Relu" => return .unary .relu
  | "Exp" => return .unary .exp
  | "Neg" => return .unary .neg
  | "Sqrt" => return .unary .sqrt
  | "Add" => return .binary .add
  | "Subtract" => return .binary .subtract
  | "Multiply" => return .binary .multiply
  | "Divide" => return .binary .divide
  | "Maximum" => return .binary .maximum
  | "BroadcastMove" => return .broadcastMove (.ofCode (← s.countAttr "dim"))
  | "ReduceSum" => return .reduce .sum (← s.countAttr "axis")
  | "ReduceMax" => return .reduce .max (← s.countAttr "axis")
  | "MatMul" => return .matmul
  | "Load" => return .load
  | "Store" => return .store
  | "Custom" => s.custom?
  | _ => throw (.unknownOperation s.op)

/-- The names of the attributes that an operation is described by. -/
def usedAttrs : Op → List String
  | .parameter _ => ["shape"]
  | .scalar _ => ["value"]
  | .broadcastMove _ => ["dim"]
  | .reduce _ _ => ["axis"]
  | .custom _ _ _ => ["name", "inputs", "outputs"]
  | .result | .unary _ | .binary _ | .matmul | .load | .store => []

/-- A warning for each attribute that the operation does not use. -/
def ignored (s : Statement) (op : Op) : List Problem :=
  (s.attrs.filter fun a => a.name.name ∉ usedAttrs op).map fun a =>
    .ignoredAttribute s.op.name a.name

/-- The name of the node for a statement: the name it binds, or else one made from its operation
and its position. -/
def nodeName (s : Statement) (index : Nat) : String :=
  match s.result with
  | some result => result.name
  | none => s!"{s.op.name.toLower}_{index}"

end Statement

end TensorIR
