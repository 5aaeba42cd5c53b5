import TensorIR.Dim

/-!
# Shapes

A shape lists the dimensions of a tensor from the outermost to the innermost; a scalar has none.

Two shapes broadcast together from the innermost dimension outwards, the shorter one being extended
by ones; since one gives way to anything, the dimensions that only one of them has are taken as
they are (`mergeInner`). The result is a shape or nothing: there is no partial answer.
-/

set_option autoImplicit false

namespace TensorIR

/-- The dimensions of a tensor, outermost first. -/
structure Shape where
  dims : List Dim
deriving DecidableEq, Repr, Inhabited

namespace Shape

/-- The shape of a scalar. -/
def scalar : Shape := ⟨[]⟩

/-- The number of dimensions. -/
def rank (s : Shape) : Nat := s.dims.length

/-- The running product of sizes, given up at a dynamic dimension or once it exceeds a word. -/
def countStep (count : Nat) : Dim → Option Nat
  | .dynamic => none
  | .static size => if count * size.val < Numeral.wordBound then some (count * size.val) else none

/-- The number of elements of a static shape, as long as every partial product from the outermost
dimension inwards is a word. -/
def elements? (s : Shape) : Option Nat := s.dims.foldlM countStep 1

/-- Merge two lists of dimensions given from the innermost outwards. -/
def mergeInner : List Dim → List Dim → Option (List Dim)
  | [], bs => some bs
  | as, [] => some as
  | a :: as, b :: bs =>
    match a.merge? b, mergeInner as bs with
    | some d, some ds => some (d :: ds)
    | _, _ => none

/-- The shape that both operands broadcast to, if there is one. -/
def broadcast? (a b : Shape) : Option Shape :=
  (mergeInner a.dims.reverse b.dims.reverse).map fun ds => ⟨ds.reverse⟩

/-- The dimensions in brackets, separated by commas. -/
def render (s : Shape) : String := "[" ++ ", ".intercalate (s.dims.map Dim.render) ++ "]"

instance : ToString Shape := ⟨render⟩

end Shape

end TensorIR
