import TensorIR.Body
import TensorIR.Digest.Sha256
import TensorIR.Json

/-!
# Snapshots

A snapshot is a body as plain data: the expressions in execution order with everything that is
known about them, and the table of connectors. Two bodies with the same snapshot are
indistinguishable to anyone who reads them, whatever their history.

Snapshots are written as JSON. A dynamic dimension is written as `null` in a shape or a block;
loops, role, emitter and register are left out where there are none. The fingerprint of a body is
the SHA-256 digest of the compact document.
-/

set_option autoImplicit false

namespace TensorIR

/-- An expression as plain data. -/
structure ExpressionSnapshot where
  id : Option ExprId
  name : String
  op : String
  inputs : List Wire
  outputs : List Wire
  loops : List Nat
  role : Option BoundaryRole
  emitter : Option String
deriving DecidableEq, Repr

/-- A connector as plain data. -/
structure ConnectorSnapshot where
  id : ConnectorId
  source : Port
  readers : List Port
deriving DecidableEq, Repr

/-- A body as plain data. -/
structure Snapshot where
  version : Nat
  expressions : List ExpressionSnapshot
  connectors : List ConnectorSnapshot
deriving DecidableEq, Repr

/-- Raised whenever the layout of snapshots changes. -/
def Snapshot.currentVersion : Nat := 1

/-! ## Taking one -/

def Expression.snapshot (e : Expression) : ExpressionSnapshot where
  id := e.id
  name := e.node.name
  op := e.node.op.render
  inputs := e.inputs
  outputs := e.outputs
  loops := e.loops
  role := e.role
  emitter := e.emitter.map Emitter.name

def Connector.snapshot (id : ConnectorId) (c : Connector) : ConnectorSnapshot where
  id := id
  source := c.sourcePort
  readers := c.readerPorts

/-- The snapshot of a body. -/
def Body.snapshot (b : Body) : Snapshot where
  version := Snapshot.currentVersion
  expressions := b.scheduled.map Expression.snapshot
  connectors := b.connectors.entries.map fun (id, c) => c.snapshot id

/-! ## As JSON -/

namespace Json

/-- A natural number. -/
def nat (n : Nat) : Json := .number n

/-- A field that is left out where there is nothing to say. -/
def optional {α : Type} (name : String) (encode : α → Json) : Option α → List (String × Json)
  | some value => [(name, encode value)]
  | none => []

end Json

/-- A dimension: its size, or `null`. -/
def Dim.json : Dim → Json
  | .dynamic => .null
  | .static size => .nat size.val

def Register.json (r : Register) : Json :=
  .object [("kind", .string r.file.name), ("idx", .nat r.index)]

def BoundaryRole.json (role : BoundaryRole) : Json :=
  .object [("index", .number role.ordinal), ("kind", .string role.side.name)]

def Port.json (p : Port) : Json :=
  .object [("expr", .nat p.expr.index), ("port_type", .string p.direction.name),
    ("index", .nat p.index)]

def Wire.json (w : Wire) : Json :=
  .object <|
    [("connector", .nat w.connector.index),
     ("shape", .array (w.descriptor.shape.dims.map Dim.json)),
     ("layout", .array (w.descriptor.layout.map Json.nat)),
     ("subtensor", .array (w.descriptor.subtensor.map Dim.json))] ++
    Json.optional "reg" Register.json w.descriptor.register

def ExpressionSnapshot.json (e : ExpressionSnapshot) : Json :=
  .object <|
    [("id", match e.id with
      | some id => .nat id.index
      | none => .null),
     ("name", .string e.name),
     ("op", .string e.op),
     ("inputs", .array (e.inputs.map Wire.json)),
     ("outputs", .array (e.outputs.map Wire.json))] ++
    (if e.loops.isEmpty then [] else [("loop_ids", .array (e.loops.map Json.nat))]) ++
    Json.optional "io" BoundaryRole.json e.role ++
    Json.optional "emitter" Json.string e.emitter

def ConnectorSnapshot.json (c : ConnectorSnapshot) : Json :=
  .object [("id", .nat c.id.index), ("source", c.source.json),
    ("consumers", .array (c.readers.map Port.json))]

/-- The document of a snapshot. -/
def Snapshot.json (s : Snapshot) : Json :=
  .object [("version", .nat s.version),
    ("expressions", .array (s.expressions.map ExpressionSnapshot.json)),
    ("connectors", .array (s.connectors.map ConnectorSnapshot.json))]

/-- The document of a body, one item a line. -/
def Body.prettyJson (b : Body) : String := b.snapshot.json.pretty

/-- The document of a body, without blanks. -/
def Body.compactJson (b : Body) : String := b.snapshot.json.compact

/-- The digest of the document without blanks. -/
def Body.fingerprint (b : Body) : String := Sha256.hexDigest b.compactJson.toUTF8.toList

end TensorIR
