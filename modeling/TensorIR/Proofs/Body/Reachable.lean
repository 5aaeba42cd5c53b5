import TensorIR.Body.Lowering
import TensorIR.Proofs.Body.Coherence
import TensorIR.Proofs.Body.Reshaping

/-!
# Bodies that can come about

A body starts empty or is lowered from a model, and from then on it changes by calls: structural
edits, passes, and changes to what is attached to one expression. `Action` lists the calls, each
with any arguments, and `Reachable` are the bodies after any number of them. A call that fails is a
step too, to whatever it has left behind.

All of them are coherent (`Reachable.coherent`). What this means to someone who only looks things up
is said by `Consistent`. Numbers are never used up here: a supply that is bounded behaves the same
until its bound is reached.
-/

set_option autoImplicit false

namespace TensorIR

/-- A change to what is attached to an expression. -/
inductive Expression.Edit where
  | registers (assignment : RegisterAssignment)
  | loops (numbers : List Nat)
  | emitter (choice : Option Emitter)
  | initEmitter (target : Target)
  /-- Any change to the descriptor at a port: its shape, layout, block or register. -/
  | descriptor (direction : Direction) (index : Nat) (change : Descriptor → Descriptor)

/-- The expression after a change, unless the change is refused. -/
def Expression.Edit.apply : Expression.Edit → Expression → Except IrError Expression
  | .registers assignment, e => e.withRegisters assignment
  | .loops numbers, e => e.withLoops numbers
  | .emitter choice, e => .ok (e.withEmitter choice)
  | .initEmitter target, e => e.initEmitter target
  | .descriptor direction index change, e => e.modifyDescriptor direction index change

theorem Expression.Edit.retouched (edit : Expression.Edit) {e e' : Expression}
    (h : edit.apply e = .ok e') : e.Retouched e' := by
  cases edit with
  | registers assignment => exact retouched_withRegisters h
  | loops numbers => exact retouched_withLoops h
  | emitter choice =>
    obtain rfl := Except.ok.inj h
    exact retouched_withEmitter e choice
  | initEmitter target => exact retouched_initEmitter h
  | descriptor direction index change => exact retouched_modifyDescriptor h

namespace Body

/-- A call that may change a body. -/
inductive Action where
  | insert (position : Nat) (node : Node) (inputs : List ConnectorId)
  | push (node : Node) (inputs : List ConnectorId)
  | remove (id : ExprId)
  | replaceInput (port : Port) (target : ConnectorId)
  | updateShapes (id : ExprId)
  | inferShapes (shapes : List Shape)
  | initEmitters (target : Target)
  /-- Bring one expression up to date with operands of the given shapes. -/
  | feed (id : ExprId) (operands : List Shape)
  | edit (id : ExprId) (change : Expression.Edit)

/-- The body that a call leaves behind, whether it succeeds or fails. -/
def after (b : Body) : Action → Body
  | .insert position node inputs => (b.insert position node inputs).2
  | .push node inputs => (b.push node inputs).2
  | .remove id => (b.remove id).2
  | .replaceInput port target => (b.replaceInput port target).2
  | .updateShapes id => (b.updateShapes id).2
  | .inferShapes shapes => (b.inferShapes shapes).2
  | .initEmitters target => (b.initEmitters target).2
  | .feed id operands => (b.onExpr id (·.updateShapes operands)).2
  | .edit id change => (b.editExpr id change.apply).2

/-- The bodies that can come about. -/
inductive Reachable : Body → Prop where
  | empty (provider : Option Provider) : Reachable (empty provider)
  | lowered {m : Model} {provider : Option Provider} {b : Body} (h : ofModel m provider = .ok b) :
    Reachable b
  | step {b : Body} (h : Reachable b) (action : Action) : Reachable (b.after action)

variable {b : Body}

/-! ## They are coherent -/

theorem Coherent.after (h : Coherent b) (action : Action) : Coherent (b.after action) := by
  cases action with
  | insert position node inputs => exact h.insert position node inputs
  | push node inputs => exact h.insert b.order.length node inputs
  | remove id => exact h.remove id
  | replaceInput port target => exact h.replaceInput port target
  | updateShapes id => exact h.retouched (retouched_updateShapes b id)
  | inferShapes shapes => exact h.retouched (retouched_inferShapes b shapes)
  | initEmitters target => exact h.retouched (retouched_initEmitters b target)
  | feed id operands =>
    exact h.retouched (retouched_onExpr (fun e => e.retouched_updateShapes operands) b id)
  | edit id change => exact h.retouched (retouched_editExpr (fun _ _ => change.retouched) b id)

/-- Lowering is nothing but insertions: it keeps whatever they keep, also where they fail. -/
theorem lowerNodes_keeps {motive : Body → Prop}
    (hpush : ∀ b node inputs, motive b → motive (b.push node inputs).2) {nodes : List ModelNode}
    {b b' : Body} {outputs : List (List ConnectorId)} (h : motive b)
    (hlower : lowerNodes b outputs nodes = .ok b') : motive b' := by
  induction nodes generalizing b outputs with
  | nil =>
    obtain rfl := Except.ok.inj hlower
    exact h
  | cons n nodes ih =>
    rw [Body.lowerNodes] at hlower
    cases hinputs : n.inputs.mapM (lowerRef outputs n.node.name) with
    | error err =>
      rw [hinputs] at hlower
      cases hlower
    | ok inputs =>
      have hpushed := hpush b n.node inputs h
      rw [hinputs] at hlower
      simp only [bind, Except.bind] at hlower
      split at hlower
      next => cases hlower
      next id pushed heq =>
        rw [heq] at hpushed
        split at hlower
        · cases hlower
        · exact ih hpushed hlower

theorem Coherent.lowerNodes {nodes : List ModelNode} {b' : Body}
    {outputs : List (List ConnectorId)} (h : Coherent b)
    (hlower : lowerNodes b outputs nodes = .ok b') : Coherent b' :=
  lowerNodes_keeps (fun b node inputs hb => hb.insert b.order.length node inputs) h hlower

theorem Reachable.coherent (h : Reachable b) : Coherent b := by
  induction h with
  | empty provider => exact coherent_empty provider
  | lowered h => exact (coherent_empty _).lowerNodes h
  | step h action ih => exact ih.after action

/-! ## What look-ups find -/

/-- Whatever is looked up in one place agrees with what is looked up in another. -/
structure Consistent (b : Body) : Prop where
  /-- Nothing is scheduled twice. -/
  nodup : b.order.Nodup
  /-- The live expressions are scheduled, and nothing else is. -/
  scheduled : ∀ id, id ∈ b.order ↔ ∃ e, b.expr id = .ok e
  /-- Operands read connectors that are live. -/
  live : ∀ id e c, b.expr id = .ok e → c ∈ e.inputConnectors → ∃ k, b.connector c = .ok k
  /-- A connector lists the operands that read it, and nothing else. -/
  readers : ∀ c k, b.connector c = .ok k → ∀ port, port ∈ k.readerPorts ↔
    port.direction = .input ∧
      ∃ e, b.expr port.expr = .ok e ∧ e.inputConnectors[port.index]? = some c
  /-- A connector is fed by its source, by one output of it and by nothing else. -/
  source : ∀ c k, b.connector c = .ok k → ∃ id j, k.sourcePort = ⟨id, .output, j⟩ ∧
    ∀ id' j', (∃ e, b.expr id' = .ok e ∧ e.outputConnectors[j']? = some c) ↔ id' = id ∧ j' = j
  /-- What an expression reads is produced by an expression before it. -/
  ordered : ∀ id e c, b.expr id = .ok e → c ∈ e.inputConnectors → ∃ k p q,
    b.connector c = .ok k ∧ b.position k.sourcePort.expr = .ok p ∧ b.position id = .ok q ∧ p < q

theorem Wired.consistent (h : Wired b) : Consistent b where
  nodup := h.nodup
  scheduled id := by simp only [expr_eq_ok_iff, h.mem_order]
  live id e c he hc := by
    obtain ⟨i, hreads⟩ := Reads.of_mem (expr_eq_ok_iff.mp he) hc
    exact (h.live_of_reads hreads).imp fun _ hk => connector_eq_ok_iff.mpr hk
  readers c k hk port := by
    have hget := connector_eq_ok_iff.mp hk
    simp only [Connector.mem_readerPorts_iff, expr_eq_ok_iff]
    refine and_congr_right fun _ => ⟨fun hlisted => ?_, fun hreads => ?_⟩
    · exact (h.reads_iff port.slot c).mpr ⟨k, hget, hlisted⟩
    · have hreads' : b.Reads port.slot c := hreads
      exact h.reads hget hreads'
  source c k hk := by
    have hget := connector_eq_ok_iff.mp hk
    refine ⟨k.source.expr, k.source.index, rfl, fun id j => ?_⟩
    simp only [expr_eq_ok_iff]
    constructor
    · intro hfeeds
      have hsource : k.source = ⟨id, j⟩ := h.source hget hfeeds
      rw [hsource]
      exact ⟨rfl, rfl⟩
    · intro hx
      obtain ⟨rfl, rfl⟩ := hx
      exact h.feeds_source hget
  ordered id e c he hc := by
    obtain ⟨i, hreads⟩ := Reads.of_mem (expr_eq_ok_iff.mp he) hc
    obtain ⟨k, hk⟩ := h.live_of_reads hreads
    obtain ⟨p, q, hp, hq, hlt⟩ := (runsBefore_iff h.nodup).mp (h.ordered ⟨id, i⟩ c k hreads hk)
    exact ⟨k, p, q, connector_eq_ok_iff.mpr hk, hp, hq, hlt⟩

/-- Bodies are consistent after any run, in which any call may have failed. -/
theorem consistent_of_reachable (h : Reachable b) : Consistent b := h.coherent.toWired.consistent

/-- A parameter that a result reads, with a call in between that fails. -/
def echo : Body :=
  (((empty none).after (.push (.make "x" (.parameter .scalar)) [])).after (.remove ⟨7⟩)).after
    (.push (.make "y" .result) [⟨0⟩])

theorem reachable_echo : Reachable echo := .step (.step (.step (.empty none) _) _) _

theorem consistent_echo : Reachable echo ∧ echo.order = [⟨0⟩, ⟨1⟩] ∧ Consistent echo :=
  ⟨reachable_echo, by decide, consistent_of_reachable reachable_echo⟩

end Body

end TensorIR
