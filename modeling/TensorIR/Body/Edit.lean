import TensorIR.Body

/-!
# Editing a body

Three edits change the structure of a body: an expression is inserted, one is removed, or one
operand is rewired to another connector. Each keeps the rule that an expression only reads what ran
before it, and refuses anything that would break it.

An edit first checks and then writes, step by step, and what it has written stays written if a later
step fails. While the connectors list their readers correctly no later step does fail, so a refused
edit leaves the body as it was; only an insertion that fails because the node takes another number
of operands has used up its numbers.
-/

set_option autoImplicit false

namespace TensorIR.Body

/-! ## Inserting -/

/-- Each connector is live and its producer runs before the position. -/
def producedBefore (b : Body) (position : Nat) (node : Node) :
    List ConnectorId → Except IrError Unit
  | [] => .ok ()
  | c :: cs => do
    let producer := (← b.connector c).source.expr
    if position ≤ (← b.position producer) then
      .error (.invalidState (.readsLater node.name c producer))
    else b.producedBefore position node cs

/-- A node could be inserted at the position, its arity aside. -/
def admits (b : Body) (position : Nat) (node : Node) (inputs : List ConnectorId) :
    Except IrError Unit :=
  if b.order.length < position then
    .error (.invalidState (.positionPastEnd position b.order.length))
  else b.producedBefore position node inputs

/-- The ordinal that the next parameter or result gets. -/
def nextOrdinal (b : Body) : Direction → Nat
  | .input => b.nextInput
  | .output => b.nextOutput

/-- The expression for a node, as a parameter or result with the next ordinal if it is one. -/
def lowered (b : Body) (node : Node) (inputs outputs : List ConnectorId) :
    Except IrError Expression :=
  match node.op.side? with
  | some side => Expression.makeBoundary node (b.nextOrdinal side) inputs outputs b.provider
  | none => Expression.make node inputs outputs b.provider

/-- The ordinal of one side is taken. -/
def takeOrdinal (b : Body) : Option Direction → Body
  | some .input => { b with nextInput := b.nextInput + 1 }
  | some .output => { b with nextOutput := b.nextOutput + 1 }
  | none => b

/-- Tell the connectors that an expression reads about its reads, operand by operand from the given
one on, up to the first that objects. -/
def tellReads (tell : Port → Connector → Except IrError Connector) (id : ExprId) :
    Body → Nat → List ConnectorId → Except IrError Unit × Body
  | b, _, [] => (.ok (), b)
  | b, i, c :: cs =>
    match b.editConnector c (tell ⟨id, .input, i⟩) with
    | (.error err, b) => (.error err, b)
    | (.ok (), b) => tellReads tell id b (i + 1) cs

/-- Let a port read a connector, whether or not it did so already. -/
def admitReader (port : Port) (c : Connector) : Except IrError Connector :=
  (c.register port).map Prod.snd

/-- The connectors with new ones fed by the outputs of an expression. -/
def addSources (id : ExprId) (connectors : OrderedMap ConnectorId Connector)
    (outputs : List ConnectorId) : OrderedMap ConnectorId Connector :=
  outputs.zipIdx.foldl (fun table (c, j) => table.insert c (.fedBy ⟨id, j⟩)) connectors

/-- The body with an expression put in its place and its outputs connected. -/
def place (b : Body) (position : Nat) (id : ExprId) (e : Expression) : Body :=
  { b with
    exprs := b.exprs.insert id (e.install id)
    connectors := addSources id b.connectors e.outputConnectors
    order := b.order.insertIdx position id }

/-- Insert an expression for a node at a position of the schedule, reading the given connectors.
Its outputs get connectors of their own. -/
def insert (b : Body) (position : Nat) (node : Node) (inputs : List ConnectorId) :
    Except IrError ExprId × Body :=
  match b.admits position node inputs with
  | .error err => (.error err, b)
  | .ok () =>
    let (id, ids) := b.ids.freshExpr
    let (outputs, ids) := ids.freshConnectors node.outputCount
    let numbered := { b with ids := ids }
    match b.lowered node inputs outputs with
    | .error err => (.error err, numbered)
    | .ok e =>
      match tellReads admitReader id (numbered.takeOrdinal node.op.side?) 0 inputs with
      | (.error err, b) => (.error err, b)
      | (.ok (), b) => (.ok id, b.place position id e)

/-- Append an expression to the schedule. -/
def push (b : Body) (node : Node) (inputs : List ConnectorId) : Except IrError ExprId × Body :=
  b.insert b.order.length node inputs

/-! ## Removing -/

/-- None of the connectors is read. -/
def unread (b : Body) (id : ExprId) : List ConnectorId → Except IrError Unit
  | [] => .ok ()
  | c :: cs => do
    match (← b.connector c).readerPorts with
    | reader :: _ => .error (.invalidState (.stillRead id c reader))
    | [] => b.unread id cs

/-- The body without an expression and without the connectors it feeds. -/
def detach (b : Body) (id : ExprId) (outputs : List ConnectorId) : Body :=
  { b with
    exprs := b.exprs.erase id
    connectors := outputs.foldl (fun table c => table.erase c) b.connectors
    order := b.order.filter (· ≠ id) }

/-- Remove an expression. This is refused while any of its outputs is read. -/
def remove (b : Body) (id : ExprId) : Except IrError Unit × Body :=
  match b.expr id with
  | .error err => (.error err, b)
  | .ok e =>
    match b.unread id e.outputConnectors with
    | .error err => (.error err, b)
    | .ok () =>
      match tellReads (fun port c => c.unregister port) id b 0 e.inputConnectors with
      | (.error err, b) => (.error err, b)
      | (.ok (), b) => (.ok (), b.detach id e.outputConnectors)

/-! ## Rewiring -/

/-- An operand may read a connector: its producer runs before the expression. -/
def mayRead (b : Body) (port : Port) (target : ConnectorId) : Except IrError Unit := do
  let producer := (← b.connector target).source.expr
  let produced ← b.position producer
  let needed ← b.position port.expr
  if needed ≤ produced then .error (.invalidState (.rewiresLater port target producer))
  else .ok ()

/-- Let an operand read another connector. The previous one is told first, then the expression, and
then the new one. -/
def moveRead (b : Body) (port : Port) (previous target : ConnectorId) :
    Except IrError Unit × Body :=
  match b.editConnector previous (·.unregister port) with
  | (.error err, b) => (.error err, b)
  | (.ok (), b) =>
    match b.editExpr port.expr fun e => (e.rewire port.index target).map Prod.snd with
    | (.error err, b) => (.error err, b)
    | (.ok (), b) => b.editConnector target (admitReader port)

/-- Let an operand read another connector. Reading the one it reads already changes nothing. -/
def replaceInput (b : Body) (port : Port) (target : ConnectorId) : Except IrError Unit × Body :=
  match port.direction with
  | .output => (.error (.invalidState (.notInput port)), b)
  | .input =>
    match b.expr port.expr >>= (·.connector .input port.index) with
    | .error err => (.error err, b)
    | .ok previous =>
      if previous = target then (.ok (), b)
      else
        match b.mayRead port target with
        | .error err => (.error err, b)
        | .ok () => b.moveRead port previous target

end TensorIR.Body
