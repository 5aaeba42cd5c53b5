import TensorIR.Node

/-!
# Targets

A target machine says which operations it can emit and provides an emitter for each. The library
keeps emitters without ever running them; all it knows of one is its name.
-/

set_option autoImplicit false

namespace TensorIR

/-- A code generator for one expression, of which only the name is known here. -/
structure Emitter where
  name : String
deriving DecidableEq, Repr

/-- A machine to generate code for. -/
structure Target where
  name : String
  supports : Op → Bool
  emitter? : Node → Option Emitter

/-- A target given by tables: operations it does not support, by name, or all that are not
elementwise; operations for which it has no emitter; and the ending of the emitters' names. -/
structure TargetTable where
  name : String
  unsupported : List String
  elementwiseOnly : Bool
  withoutEmitter : List String
  suffix : String
deriving DecidableEq, Repr

/-- The target that a table describes. -/
def TargetTable.target (t : TargetTable) : Target where
  name := t.name
  supports op :=
    !(t.unsupported.contains op.typeName || (t.elementwiseOnly && !op.isElementwise))
  emitter? node :=
    if t.withoutEmitter.contains node.op.typeName then none
    else some ⟨node.op.typeName ++ t.suffix⟩

end TensorIR
