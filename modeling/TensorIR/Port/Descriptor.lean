import TensorIR.Shape

/-!
# Port descriptors

What is known about the tensor at a port: its shape, the order in which its axes are laid out in
memory, the block of it that is processed at a time, and the register that holds it once registers
are assigned.

Layout and block are derived from the shape when the descriptor is made, and again whenever a new
shape has another number of axes than the layout lists (`withShape`). Otherwise they are kept as
they are, because someone may have chosen them.
-/

set_option autoImplicit false

namespace TensorIR

/-- The register files of a target. -/
inductive RegisterFile where
  | gpr
  | vec
deriving DecidableEq, Repr

/-- A physical register. -/
structure Register where
  file : RegisterFile
  index : Nat
deriving DecidableEq, Repr

/-- What is known about the tensor at a port. -/
structure Descriptor where
  shape : Shape
  /-- The axes in the order in which they are laid out. -/
  layout : List Nat
  /-- The block that is processed at a time. -/
  subtensor : List Dim
  register : Option Register
deriving DecidableEq, Repr

def RegisterFile.name : RegisterFile → String
  | .gpr => "gpr"
  | .vec => "vec"

def Register.render (r : Register) : String := s!"{r.file.name}{r.index}"

namespace Descriptor

/-- The layout that keeps the axes in order. -/
def planar (rank : Nat) : List Nat := List.range rank

/-- A tensor of the given shape, laid out in order, processed whole, in no register. -/
def ofShape (shape : Shape) : Descriptor where
  shape := shape
  layout := planar shape.rank
  subtensor := shape.dims
  register := none

/-- Replace the shape. A layout for another number of axes is replaced too, and the block with it;
the register stays. -/
def withShape (d : Descriptor) (shape : Shape) : Descriptor :=
  if shape.rank = d.layout.length then { d with shape := shape }
  else { d with shape := shape, layout := planar shape.rank, subtensor := shape.dims }

/-- The axes are laid out in order, as far as the layout lists them. -/
def isPlanar (d : Descriptor) : Bool := d.layout.zipIdx.all fun (axis, i) => axis == i

/-- A list of numbers in brackets. -/
def renderNumbers (ns : List Nat) : String := "[" ++ ", ".intercalate (ns.map toString) ++ "]"

/-- The shape, the layout when the axes are not in order, and the register when there is one. -/
def render (d : Descriptor) : String :=
  let layout := if d.isPlanar then "" else s!" layout={renderNumbers d.layout}"
  let register := match d.register with
    | some r => s!" @{r.render}"
    | none => ""
  d.shape.render ++ layout ++ register

@[simp] theorem shape_ofShape (shape : Shape) : (ofShape shape).shape = shape := rfl

@[simp] theorem shape_withShape (d : Descriptor) (shape : Shape) :
    (d.withShape shape).shape = shape := by
  unfold withShape; split <;> rfl

@[simp] theorem register_withShape (d : Descriptor) (shape : Shape) :
    (d.withShape shape).register = d.register := by
  unfold withShape; split <;> rfl

end Descriptor

end TensorIR
