import TensorIR.Inference.Strategy

/-!
# Shape rules given by the user

Rules for operations the catalogue does not know, or replacements for the built-in ones, are given
as a table from operation names to actions. The first entry with the operation's name applies; a
custom operation goes by the name it was given in the program.
-/

set_option autoImplicit false

namespace TensorIR

/-- What a user's rule does with the shapes of the operands. -/
inductive CustomRule where
  /-- Answer with the given shapes. -/
  | fixed (shapes : List Shape)
  /-- Decline to answer. -/
  | skip (shapes : List Shape)
  /-- Fail for the given reason. -/
  | fail (cause : ShapeError)
  /-- Answer with a number of copies of the first operand, halved along the innermost axis. -/
  | halve (copies : Nat)
  /-- Answer with the shapes of the operands in reverse order. -/
  | reverse
deriving DecidableEq, Repr

namespace CustomRule

/-- Half of an even size. A dynamic dimension cannot be halved. -/
def half? : Dim → Option Dim
  | .static size => if size.val % 2 = 0 then some (.ofCode (size.val / 2)) else none
  | .dynamic => none

/-- A shape halved along the innermost axis. -/
def halved? (shape : Shape) : Option Shape :=
  match shape.dims.reverse with
  | [] => none
  | last :: rest => (half? last).map fun d => ⟨(d :: rest).reverse⟩

/-- The answer of a rule to the shapes of the operands. -/
def infer : CustomRule → Strategy
  | .fixed shapes, _ => .ok (.success shapes)
  | .skip shapes, _ => .ok (.skip shapes)
  | .fail cause, _ => .error cause
  | .halve _, [] => .error (.other "no input")
  | .halve copies, shape :: _ =>
    match halved? shape with
    | some half => .ok (.success (List.replicate copies half))
    | none => .error (.other s!"cannot halve {shape.render}")
  | .reverse, shapes => .ok (.success shapes.reverse)

/-- A table of rules as a provider: the first entry with the operation's name applies. -/
def provider (table : List (String × CustomRule)) : Provider := fun node =>
  (table.lookup node.op.typeName).map infer

end CustomRule

end TensorIR
