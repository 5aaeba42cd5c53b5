import TensorIR.Connector
import TensorIR.Expression.Update

/-!
# Lowered bodies

A body is a straight-line program over tensors: expressions in the order in which they run, and the
connectors that carry tensors from one to another. Everything refers to everything else by number,
and the two tables are the only place where numbers are resolved.

The schedule lists the numbers of the expressions in execution order. The numbers still to be handed
out, and the ordinals still to be given to parameters and results, only ever grow: a removed
expression leaves its number and its ordinal unused for good.
-/

set_option autoImplicit false

namespace TensorIR

/-- A scheduled set of expressions with the connectors between them. -/
structure Body where
  exprs : OrderedMap ExprId Expression
  connectors : OrderedMap ConnectorId Connector
  /-- The numbers of the expressions in execution order. -/
  order : List ExprId
  ids : IdSupply
  /-- The ordinal of the next parameter. -/
  nextInput : Nat
  /-- The ordinal of the next result. -/
  nextOutput : Nat
  /-- The user's source of inference strategies, asked before the built-in rules. -/
  provider : Option Provider

namespace Body

/-- The body without expressions. -/
def empty (provider : Option Provider) : Body where
  exprs := .empty
  connectors := .empty
  order := []
  ids := {}
  nextInput := 0
  nextOutput := 0
  provider := provider

/-! ## Looking up -/

/-- The expression of a number. -/
def expr (b : Body) (id : ExprId) : Except IrError Expression :=
  match b.exprs.get? id with
  | some e => .ok e
  | none => .error (.unknownExpression id)

/-- The connector of a number. -/
def connector (b : Body) (id : ConnectorId) : Except IrError Connector :=
  match b.connectors.get? id with
  | some c => .ok c
  | none => .error (.unknownConnector id)

/-- The position of an expression in the schedule. -/
def position (b : Body) (id : ExprId) : Except IrError Nat :=
  match b.order.idxOf? id with
  | some i => .ok i
  | none => .error (.unknownExpression id)

theorem expr_eq_ok_iff {b : Body} {id : ExprId} {e : Expression} :
    b.expr id = .ok e ↔ b.exprs.get? id = some e := by
  unfold expr
  cases b.exprs.get? id <;> simp

theorem connector_eq_ok_iff {b : Body} {id : ConnectorId} {c : Connector} :
    b.connector id = .ok c ↔ b.connectors.get? id = some c := by
  unfold connector
  cases b.connectors.get? id <;> simp

theorem position_eq_ok_iff {b : Body} {id : ExprId} {i : Nat} :
    b.position id = .ok i ↔ b.order.idxOf? id = some i := by
  unfold position
  cases b.order.idxOf? id <;> simp

theorem get?_of_expr_error {b : Body} {id : ExprId} {err : IrError} (h : b.expr id = .error err) :
    b.exprs.get? id = none := by
  unfold expr at h
  cases hget : b.exprs.get? id with
  | none => rfl
  | some e => rw [hget] at h; cases h

theorem get?_of_connector_error {b : Body} {id : ConnectorId} {err : IrError}
    (h : b.connector id = .error err) : b.connectors.get? id = none := by
  unfold connector at h
  cases hget : b.connectors.get? id with
  | none => rfl
  | some c => rw [hget] at h; cases h

/-- The expressions in execution order. -/
def scheduled (b : Body) : List Expression := b.order.filterMap b.exprs.get?

/-- The expressions on one side of the graph with their roles, by ordinal. -/
def boundary (b : Body) (side : Direction) : List (Expression × BoundaryRole) :=
  let found := b.scheduled.filterMap fun e => e.role.map fun role => (e, role)
  (found.filter fun p => p.2.side = side).mergeSort fun p q => p.2.ordinal ≤ q.2.ordinal

/-! ## Changing one expression or one connector -/

/-- Change an expression, as far as the change goes: it may fail and still leave a trace. -/
def onExpr {α : Type} (b : Body) (id : ExprId)
    (f : Expression → Except IrError α × Expression) : Except IrError α × Body :=
  match b.expr id with
  | .error err => (.error err, b)
  | .ok e => ((f e).1, { b with exprs := b.exprs.insert id (f e).2 })

/-- Change an expression by a step that happens as a whole or not at all. -/
def editExpr (b : Body) (id : ExprId) (f : Expression → Except IrError Expression) :
    Except IrError Unit × Body :=
  match b.expr id >>= f with
  | .error err => (.error err, b)
  | .ok e => (.ok (), { b with exprs := b.exprs.insert id e })

/-- Change a connector by a step that happens as a whole or not at all. -/
def editConnector (b : Body) (id : ConnectorId) (f : Connector → Except IrError Connector) :
    Except IrError Unit × Body :=
  match b.connector id >>= f with
  | .error err => (.error err, b)
  | .ok c => (.ok (), { b with connectors := b.connectors.insert id c })

/-- Put another expression in the place of one. The schedule and the connectors are left alone. -/
def overwrite (b : Body) (id : ExprId) (e : Expression) : Except IrError Body :=
  (b.expr id).map fun _ => { b with exprs := b.exprs.insert id e }

/-- Attach an emitter to each of the listed expressions, up to the first for which there is none. -/
def initEmittersOf (target : Target) : Body → List ExprId → Except IrError Unit × Body
  | b, [] => (.ok (), b)
  | b, id :: ids =>
    match b.editExpr id (·.initEmitter target) with
    | (.error err, b) => (.error err, b)
    | (.ok (), b) => initEmittersOf target b ids

/-- Attach an emitter to every expression. -/
def initEmitters (b : Body) (target : Target) : Except IrError Unit × Body :=
  initEmittersOf target b b.order

/-! ## In text -/

/-- One line per expression, in execution order. -/
def render (b : Body) : String := String.join (b.scheduled.map fun e => e.render ++ "\n")

/-- The body in one line: its schedule and the sizes of its tables. -/
def summary (b : Body) : String :=
  let order := ", ".intercalate (b.order.map fun id => s!"ExprId({id.index})")
  "LinearIr \x7b order: [" ++ order ++
    s!"], expressions: {b.order.length}, connectors: {b.connectors.size} " ++ "\x7d"

end Body

end TensorIR
