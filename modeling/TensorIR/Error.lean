import TensorIR.Inference.Strategy
import TensorIR.Port

/-!
# What can go wrong in a lowered body

Expressions, connectors and the body that holds them refuse an operation by naming the cause. The
causes are data here, and the wording is one function per kind (`IrError.message`), so that a
statement about failure never mentions a text.

Three families of causes are large enough to have a type of their own: misuses, which would break
the body if they were allowed; violations, which a check found in a body; and quantities, which are
counted and found to differ. Misuses and violations found by passes outside this library are
carried as described ones.
-/

set_option autoImplicit false

namespace TensorIR

/-- What was counted and found to differ. -/
inductive Quantity where
  | graphInputShapes
  | inputConnectors
  | outputConnectors
  | inputRegisters
  | outputRegisters
  | inputShapeBatch
deriving DecidableEq, Repr

def Quantity.name : Quantity → String
  | .graphInputShapes => "graph input shapes"
  | .inputConnectors => "input connectors"
  | .outputConnectors => "output connectors"
  | .inputRegisters => "input physical registers"
  | .outputRegisters => "output physical registers"
  | .inputShapeBatch => "input shape batch"

/-- A request that does not fit the state it was made in. -/
inductive Misuse where
  /-- A connector is fed by an output. -/
  | sourceNotOutput (source : Port)
  /-- A connector is read by inputs. -/
  | readerNotInput (reader : Port)
  /-- The port does not read the connector fed by the source. -/
  | notReader (port source : Port)
  /-- Only parameters and results stand at the boundary. -/
  | notBoundary (node typeName : String)
  /-- Only an installed expression has ports that others can name. -/
  | notInstalled
  /-- The target has no code for the operation. -/
  | unsupported (target node typeName : String)
  /-- The target gave no emitter for the operation. -/
  | noEmitter (target node : String)
  /-- The schedule has no such position. -/
  | positionPastEnd (position length : Nat)
  /-- A new expression would read what is not computed yet. -/
  | readsLater (node : String) (connector : ConnectorId) (producer : ExprId)
  /-- An output is still needed. -/
  | stillRead (expr : ExprId) (connector : ConnectorId) (reader : Port)
  /-- Only operands can be rewired. -/
  | notInput (port : Port)
  /-- A rewired operand would read what is not computed yet. -/
  | rewiresLater (port : Port) (connector : ConnectorId) (producer : ExprId)
  /-- A node reads an output that is not there yet. -/
  | notLowered (node : String) (ref : OutputRef)
  /-- A misuse found elsewhere. -/
  | described (text : String)
deriving DecidableEq, Repr

def Misuse.message : Misuse → String
  | .sourceNotOutput source => s!"connector source {source.render} must be an output port"
  | .readerNotInput reader => s!"connector consumer {reader.render} must be an input port"
  | .notReader port source =>
    s!"{port.render} is not a consumer of the connector fed by {source.render}"
  | .notBoundary node typeName => s!"'{node}' ({typeName}) is not a graph boundary operation"
  | .notInstalled =>
    "expression is not owned by a linear IR; port handles need a stable id"
  | .unsupported target node typeName => s!"target '{target}' cannot emit '{node}' ({typeName})"
  | .noEmitter target node => s!"target '{target}' produced no emitter for '{node}'"
  | .positionPastEnd position length =>
    s!"insert position {position} past the end ({length} expressions)"
  | .readsLater node connector producer =>
    s!"'{node}' would read {connector.render} before its producer {producer.render} runs"
  | .stillRead expr connector reader =>
    s!"cannot remove {expr.render}: its output {connector.render} is still read by " ++
      reader.render
  | .notInput port => s!"{port.render} is not an input port"
  | .rewiresLater port connector producer =>
    s!"{port.render} would read {connector.render} before its producer {producer.render} runs"
  | .notLowered node ref => s!"'{node}' reads {ref.render}, which has not been lowered"
  | .described text => text

/-- The properties of a body that checks look at. -/
inductive Invariant where
  | inputArity
  | outputArity
  | sourceOperation
  | uniqueLoopIds
  | consumerBookkeeping
  | connectorSource
  | shapeAgreement
deriving DecidableEq, Repr

def Invariant.statement : Invariant → String
  | .inputArity => "input descriptor count equals input connector count"
  | .outputArity => "output descriptor count equals output connector count"
  | .sourceOperation => "expression has a source operation"
  | .uniqueLoopIds => "loop ids are unique"
  | .consumerBookkeeping => "connector consumers match the ports reading them"
  | .connectorSource => "output connector source is its owning port"
  | .shapeAgreement => "consumer shapes match their connector source shape"

/-- What a check found. -/
inductive Violation where
  /-- A loop is listed twice. -/
  | repeatedLoop (loop : Nat)
  /-- A port reads a connector that does not list it. -/
  | unlistedReader (port : Port) (connector : ConnectorId)
  /-- An output's connector is fed by another port. -/
  | foreignSource (connector : ConnectorId) (owner source : Port)
  /-- A connector lists a port that does not read it. -/
  | idleReader (connector : ConnectorId) (reader : Port)
  /-- A reader sees another shape than the source produces. -/
  | shapeMismatch (connector : ConnectorId) (source : Port) (produced : Shape) (reader : Port)
      (seen : Shape)
  /-- A violation found elsewhere. -/
  | described (broken : Invariant) (text : String)
deriving DecidableEq, Repr

/-- The property that does not hold. -/
def Violation.invariant : Violation → Invariant
  | .repeatedLoop _ => .uniqueLoopIds
  | .unlistedReader _ _ | .idleReader _ _ => .consumerBookkeeping
  | .foreignSource _ _ _ => .connectorSource
  | .shapeMismatch .. => .shapeAgreement
  | .described broken _ => broken

/-- Where it does not hold, and how. -/
def Violation.detail : Violation → String
  | .repeatedLoop loop => s!"loop id {loop} is repeated"
  | .unlistedReader port connector =>
    s!"{port.render} reads {connector.render} but is not among its consumers"
  | .foreignSource connector owner source =>
    s!"{connector.render} is owned by {owner.render} but its source is {source.render}"
  | .idleReader connector reader =>
    s!"{connector.render} lists {reader.render}, which does not read it"
  | .shapeMismatch connector source produced reader seen =>
    s!"{connector.render}: {source.render} produces {produced.render} but {reader.render} sees " ++
      seen.render
  | .described _ text => text

/-- Why an operation on a body, or on a part of it, was refused. -/
inductive IrError where
  /-- The expression has no such port. -/
  | outOfRange (direction : Direction) (index count : Nat)
  /-- A list has another length than needed. -/
  | arityMismatch (what : Quantity) (expected got : Nat)
  /-- A loop is listed twice. -/
  | duplicateLoopId (loop : Nat)
  /-- Something is used before it exists. -/
  | uninitialized (text : String)
  /-- The request does not fit the state. -/
  | invalidState (misuse : Misuse)
  /-- The output shapes of a node could not be inferred. -/
  | shapeInference (node : String) (cause : ShapeError)
  /-- A check failed. -/
  | violated (violation : Violation)
  /-- There is no expression of that number, or no longer. -/
  | unknownExpression (id : ExprId)
  /-- There is no connector of that number, or no longer. -/
  | unknownConnector (id : ConnectorId)
deriving DecidableEq, Repr

def IrError.message : IrError → String
  | .outOfRange direction index count =>
    s!"{direction.name} port index {index} out of range ({count} ports)"
  | .arityMismatch what expected got => s!"{what.name}: expected {expected}, got {got}"
  | .duplicateLoopId loop => s!"loop ids must be unique: {loop} appears more than once"
  | .uninitialized text => s!"uninitialized state: {text}"
  | .invalidState misuse => s!"invalid state: {misuse.message}"
  | .shapeInference node cause => s!"shape inference of '{node}' failed: {cause.message}"
  | .violated violation =>
    s!"invariant violated ({violation.invariant.statement}): {violation.detail}"
  | .unknownExpression id => s!"unknown expression {id.render}"
  | .unknownConnector id => s!"unknown connector {id.render}"

end TensorIR
