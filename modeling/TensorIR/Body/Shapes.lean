import TensorIR.Body

/-!
# Shape inference over a body

Because an expression only reads what ran before it, one pass in execution order brings all shapes
up to date. The parameters are the exception: nothing feeds them, so they keep the shapes they
have, or get the ones given for this run.

When an expression fails, everything before it has its new shapes and everything after it the old
ones.
-/

set_option autoImplicit false

namespace TensorIR.Body

/-- The descriptor at a port. -/
def descriptor (b : Body) (port : Port) : Except IrError Descriptor := do
  (← b.expr port.expr).descriptor port.direction port.index

/-- The shape that a connector carries. -/
def carriedShape (b : Body) (id : ConnectorId) : Except IrError Shape := do
  return (← b.descriptor (← b.connector id).sourcePort).shape

/-- Bring one expression up to date with the expressions it reads. -/
def updateShapes (b : Body) (id : ExprId) : Except IrError Unit × Body :=
  match (do (← b.expr id).inputConnectors.mapM b.carriedShape : Except IrError (List Shape)) with
  | .error err => (.error err, b)
  | .ok shapes => b.onExpr id (·.updateShapes shapes)

/-- Bring expressions up to date one after the other, up to the first that fails. -/
def updateAll : Body → List ExprId → Except IrError Unit × Body
  | b, [] => (.ok (), b)
  | b, id :: ids =>
    match b.updateShapes id with
    | (.error err, b) => (.error err, b)
    | (.ok (), b) => updateAll b ids

/-- The parameters by ordinal, as far as they can be named. -/
def parameterIds (b : Body) : List ExprId :=
  (b.boundary .input).filterMap fun p => p.1.id

/-- Give expressions new shapes at their first output, up to the first that has none. -/
def overrideShapes : Body → List (ExprId × Shape) → Except IrError Unit × Body
  | b, [] => (.ok (), b)
  | b, (id, shape) :: rest =>
    match b.editExpr id (·.modifyDescriptor .output 0 (·.withShape shape)) with
    | (.error err, b) => (.error err, b)
    | (.ok (), b) => overrideShapes b rest

/-- The shapes that reach the results, by ordinal. -/
def resultShapes (b : Body) : Except IrError (List Shape) :=
  (b.boundary .output).mapM fun p => (p.1.descriptor .input 0).map Descriptor.shape

/-- Infer the shapes of a whole body. An empty list of shapes leaves the parameters as they are;
any other has one shape for each parameter. The answer is the shapes that reach the results. -/
def inferShapes (b : Body) (shapes : List Shape) : Except IrError (List Shape) × Body :=
  let params := b.parameterIds
  if !shapes.isEmpty && shapes.length != params.length then
    (.error (.arityMismatch .graphInputShapes params.length shapes.length), b)
  else
    match b.overrideShapes (params.zip shapes) with
    | (.error err, b) => (.error err, b)
    | (.ok (), b) =>
      match updateAll b (b.order.filter (· ∉ params)) with
      | (.error err, b) => (.error err, b)
      | (.ok (), b) => (b.resultShapes, b)

end TensorIR.Body
