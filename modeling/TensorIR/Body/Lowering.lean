import TensorIR.Body.Edit
import TensorIR.Model

/-!
# Lowering a model

A model becomes a body by pushing its nodes one after the other. What each node's outputs became is
kept in a list alongside, so that the references of later nodes can be turned into connectors.
-/

set_option autoImplicit false

namespace TensorIR.Body

/-- The connector that a referenced output became. -/
def lowerRef (outputs : List (List ConnectorId)) (reader : String) (ref : OutputRef) :
    Except IrError ConnectorId :=
  match outputs[ref.node]? >>= (·[ref.port]?) with
  | some c => .ok c
  | none => .error (.invalidState (.notLowered reader ref))

/-- Push nodes one after the other; `outputs` holds the output connectors of the nodes so far. -/
def lowerNodes : Body → List (List ConnectorId) → List ModelNode → Except IrError Body
  | b, _, [] => .ok b
  | b, outputs, n :: rest => do
    let inputs ← n.inputs.mapM (lowerRef outputs n.node.name)
    match b.push n.node inputs with
    | (.error err, _) => .error err
    | (.ok id, b) =>
      let e ← b.expr id
      lowerNodes b (outputs ++ [e.outputConnectors]) rest

/-- The body that a model lowers to. -/
def ofModel (m : Model) (provider : Option Provider) : Except IrError Body :=
  lowerNodes (empty provider) [] m.nodes

end TensorIR.Body
