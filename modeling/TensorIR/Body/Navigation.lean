import TensorIR.Body.Shapes

/-!
# Following connectors from port to port

From a port one can go to its expression, to its descriptor, to its connector, and along the
connector to the other end: from an operand to the one output that feeds it, from an output to all
operands that read it.
-/

set_option autoImplicit false

namespace TensorIR.Body

/-- The number of the connector at a port. -/
def connectorAt (b : Body) (port : Port) : Except IrError ConnectorId := do
  (← b.expr port.expr).connector port.direction port.index

/-- The ports at the other end of a port's connector. -/
def connected (b : Body) (port : Port) : Except IrError (List Port) := do
  let c ← b.connector (← b.connectorAt port)
  match port.direction with
  | .input => return [c.sourcePort]
  | .output => return c.readerPorts

end TensorIR.Body
