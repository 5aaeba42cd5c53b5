import TensorIR.Body.Shapes

/-!
# Checking a body

Two checks read a body and report the first thing that is wrong. The structural one (`validate`)
goes through the schedule and then through the connectors: every operand is listed by the connector
it reads, every output's connector names that output as its source, and nobody is listed who does
not read. The other one (`checkShapes`) compares what each source produces with what its readers
see.
-/

set_option autoImplicit false

namespace TensorIR.Body

/-- The operands of an expression are listed by the connectors they read. -/
def checkReads (b : Body) (id : ExprId) : List (ConnectorId × Nat) → Except IrError Unit
  | [] => .ok ()
  | (c, i) :: rest => do
    if (← b.connector c).reads ⟨id, i⟩ then b.checkReads id rest
    else .error (.violated (.unlistedReader ⟨id, .input, i⟩ c))

/-- The connectors of an expression's outputs are fed by these outputs. -/
def checkSources (b : Body) (id : ExprId) : List (ConnectorId × Nat) → Except IrError Unit
  | [] => .ok ()
  | (c, j) :: rest => do
    let source := (← b.connector c).source
    if source = ⟨id, j⟩ then b.checkSources id rest
    else .error (.violated (.foreignSource c ⟨id, .output, j⟩ source.output))

/-- Each scheduled expression is sound in itself and correctly connected. -/
def checkScheduled (b : Body) : List ExprId → Except IrError Unit
  | [] => .ok ()
  | id :: ids => do
    let e ← b.expr id
    e.validate
    b.checkReads id e.inputConnectors.zipIdx
    b.checkSources id e.outputConnectors.zipIdx
    b.checkScheduled ids

/-- The connector that an operand reads, if there is such an operand. -/
def readBy? (b : Body) (slot : Slot) : Option ConnectorId :=
  (do (← b.expr slot.expr).connector .input slot.index : Except IrError ConnectorId).toOption

/-- The listed readers of a connector all read it. -/
def checkReaders (b : Body) (c : ConnectorId) : List Slot → Except IrError Unit
  | [] => .ok ()
  | slot :: slots =>
    if b.readBy? slot = some c then b.checkReaders c slots
    else .error (.violated (.idleReader c slot.input))

/-- No connector lists anyone who does not read it. -/
def checkConnectors (b : Body) : List (ConnectorId × Connector) → Except IrError Unit
  | [] => .ok ()
  | (c, connector) :: rest => do
    b.checkReaders c (OrderedSet.toList connector.readers)
    b.checkConnectors rest

/-- Check the structure of a body. -/
def validate (b : Body) : Except IrError Unit := do
  b.checkScheduled b.order
  b.checkConnectors b.connectors.entries

/-- The readers of a connector see the shape that its source produces. -/
def checkSeen (b : Body) (c : ConnectorId) (source : Port) (produced : Shape) :
    List Port → Except IrError Unit
  | [] => .ok ()
  | reader :: readers => do
    let seen := (← b.descriptor reader).shape
    if seen = produced then b.checkSeen c source produced readers
    else .error (.violated (.shapeMismatch c source produced reader seen))

/-- The readers of all connectors see what their sources produce. -/
def checkCarried (b : Body) : List (ConnectorId × Connector) → Except IrError Unit
  | [] => .ok ()
  | (c, connector) :: rest => do
    let produced := (← b.descriptor connector.sourcePort).shape
    b.checkSeen c connector.sourcePort produced connector.readerPorts
    b.checkCarried rest

/-- Check that the shapes of a body agree. -/
def checkShapes (b : Body) : Except IrError Unit := b.checkCarried b.connectors.entries

end TensorIR.Body
