import TensorIR.Proofs.Body.Checking
import TensorIR.Proofs.Body.Reachable

/-!
# Bodies that were tampered with

Whoever gets hold of an expression of a body can rewire it alone, and the connectors are not told
(`rewireAlone`). From then on the body is no longer coherent, and the calls that follow do not find
what they rely on: a removal takes away a connector that somebody still reads, or stops half way
because a connector does not list the reader that it is asked to release.

Little is left that holds of a body with such a history (`Orderly`), but it is enough for the
structural check to be exact on all of them (`validate_decides`): it succeeds if and only if the
connectors account for all that is read and produced (`Accounted`).
-/

set_option autoImplicit false

namespace TensorIR.Body

/-- Rewire an operand of one expression and leave the connectors as they are. -/
def rewireAlone (b : Body) (id : ExprId) (index : Nat) (target : ConnectorId) :
    Except IrError Unit × Body :=
  b.editExpr id fun e => (e.rewire index target).map Prod.snd

/-- The bodies that can come about if expressions may also be rewired alone, at any time. -/
inductive Tampered : Body → Prop where
  | reachable {b : Body} (h : Reachable b) : Tampered b
  | step {b : Body} (h : Tampered b) (action : Action) : Tampered (b.after action)
  | rewired {b : Body} (h : Tampered b) (id : ExprId) (index : Nat) (target : ConnectorId) :
    Tampered (b.rewireAlone id index target).2

variable {b b' : Body}

/-! ## What no tampering breaks -/

/-- The schedule lists what is live, and no expression lists a loop twice. -/
structure Orderly (b : Body) : Prop where
  mem_order : ∀ id, id ∈ b.order ↔ ∃ e, b.exprs.get? id = some e
  loops : ∀ id e, b.exprs.get? id = some e → e.loops.Nodup

theorem Coherent.orderly (h : Coherent b) : Orderly b :=
  ⟨h.mem_order, fun id e he => (h.installed id e he).loops⟩

namespace Orderly

/-- Nothing else matters than the expressions and the schedule. -/
theorem of_same (h : Orderly b) (hexprs : b'.exprs = b.exprs) (horder : b'.order = b.order) :
    Orderly b' where
  mem_order id := by rw [horder, hexprs]; exact h.mem_order id
  loops id e he := by rw [hexprs] at he; exact h.loops id e he

theorem editExpr (h : Orderly b) {id : ExprId} {f : Expression → Except IrError Expression}
    (hf : ∀ e e', f e = .ok e' → e.loops.Nodup → e'.loops.Nodup) :
    Orderly (b.editExpr id f).2 := by
  rcases editExpr_cases b id f with ⟨err, heq⟩ | ⟨e, e', he, hfe, heq⟩
  · rw [heq]
    exact h
  · rw [heq]
    constructor
    · intro id'
      show id' ∈ b.order ↔ ∃ e, (b.exprs.insert id e').get? id' = some e
      rw [h.mem_order, OrderedMap.get?_insert]
      by_cases hid : id' = id
      · subst hid
        simp [he]
      · simp [hid]
    · intro id' e₀ he₀
      have hget : (b.exprs.insert id e').get? id' = some e₀ := he₀
      rw [OrderedMap.get?_insert] at hget
      by_cases hid : id' = id
      · rw [if_pos hid] at hget
        obtain rfl := Option.some.inj hget
        exact hf e e' hfe (h.loops id e he)
      · rw [if_neg hid] at hget
        exact h.loops id' e₀ hget

theorem editConnector (h : Orderly b) (c : ConnectorId)
    (f : Connector → Except IrError Connector) : Orderly (b.editConnector c f).2 := by
  unfold Body.editConnector
  split
  · exact h
  · exact h.of_same rfl rfl

/-- However far the operands of an expression get, only connectors are told. -/
theorem tellReads (h : Orderly b) (tell : Port → Connector → Except IrError Connector)
    (id : ExprId) (i : Nat) (cs : List ConnectorId) :
    Orderly (Body.tellReads tell id b i cs).2 := by
  induction cs generalizing b i with
  | nil => exact h
  | cons c cs ih =>
    have hfirst : Orderly (b.editConnector c (tell ⟨id, .input, i⟩)).2 := h.editConnector c _
    rw [Body.tellReads]
    split
    next heq => rw [heq] at hfirst; exact hfirst
    next heq => rw [heq] at hfirst; exact ih hfirst (i + 1)

theorem insert (h : Orderly b) (position : Nat) (node : Node) (inputs : List ConnectorId) :
    Orderly (b.insert position node inputs).2 := by
  rcases insert_cases b position node inputs with
    ⟨err, -, heq⟩ | ⟨-, -, heq⟩ | ⟨hadm, -, e, b', heq, hi⟩
  · rw [heq]
    exact h
  · rw [heq]
    exact h.of_same rfl rfl
  · rw [heq]
    constructor
    · exact hi.mem_order (admits_eq_ok_iff.mp hadm).1 h.mem_order
    · intro id e' he'
      rcases hi.expr_cases he' with ⟨-, rfl⟩ | ⟨-, he'⟩
      · rw [hi.made.loops]
        exact List.nodup_nil
      · exact h.loops id e' he'

theorem detach (h : Orderly b) (id : ExprId) (outputs : List ConnectorId) :
    Orderly (b.detach id outputs) where
  mem_order id' := by
    show id' ∈ b.order.filter (· ≠ id) ↔ ∃ e, (b.exprs.erase id).get? id' = some e
    rw [List.mem_filter, h.mem_order, OrderedMap.get?_erase]
    by_cases hid : id' = id <;> simp [hid]
  loops id' e' he' := by
    have hget : (b.exprs.erase id).get? id' = some e' := he'
    rw [OrderedMap.get?_erase] at hget
    by_cases hid : id' = id
    · rw [if_pos hid] at hget
      cases hget
    · rw [if_neg hid] at hget
      exact h.loops id' e' hget

/-- A removal may stop at any connector that does not list the operand. -/
theorem remove (h : Orderly b) (id : ExprId) : Orderly (b.remove id).2 := by
  unfold Body.remove
  split
  · exact h
  next e he =>
    split
    · exact h
    · have htold := h.tellReads (fun port c => c.unregister port) id 0 e.inputConnectors
      split
      next heq => rw [heq] at htold; exact htold
      next heq => rw [heq] at htold; exact htold.detach id e.outputConnectors

theorem rewireAlone (h : Orderly b) (id : ExprId) (index : Nat) (target : ConnectorId) :
    Orderly (b.rewireAlone id index target).2 := by
  refine h.editExpr fun e e' he' hloops => ?_
  have hsame : e'.loops = e.loops := by
    rw [Expression.rewire] at he'
    cases hw : e.wire .input index with
    | error err => rw [hw] at he'; cases he'
    | ok w => rw [hw] at he'; cases he'; rfl
  rw [hsame]
  exact hloops

/-- A rewiring writes three times and may stop before each. -/
theorem moveRead (h : Orderly b) (port : Port) (previous target : ConnectorId) :
    Orderly (b.moveRead port previous target).2 := by
  have hreleased := h.editConnector previous (·.unregister port)
  unfold Body.moveRead
  split
  next heq => rw [heq] at hreleased; exact hreleased
  next released heq =>
    rw [heq] at hreleased
    have hrewired := hreleased.rewireAlone port.expr port.index target
    unfold Body.rewireAlone at hrewired
    split
    next heq => rw [heq] at hrewired; exact hrewired
    next heq => rw [heq] at hrewired; exact hrewired.editConnector target _

theorem replaceInput (h : Orderly b) (port : Port) (target : ConnectorId) :
    Orderly (b.replaceInput port target).2 := by
  unfold Body.replaceInput
  split
  · exact h
  · split
    · exact h
    · split
      · exact h
      · split
        · exact h
        · exact h.moveRead port _ target

theorem retouched (h : Orderly b) (hr : Retouched b b') : Orderly b' where
  mem_order id := by rw [hr.order, hr.live_iff]; exact h.mem_order id
  loops id e' he' := by
    obtain ⟨e, he, hee'⟩ := hr.before he'
    exact hee'.loops (h.loops id e he)

theorem after (h : Orderly b) (action : Action) : Orderly (b.after action) := by
  cases action with
  | insert position node inputs => exact h.insert position node inputs
  | push node inputs => exact h.insert b.order.length node inputs
  | remove id => exact h.remove id
  | replaceInput port target => exact h.replaceInput port target
  | updateShapes id => exact h.retouched (retouched_updateShapes b id)
  | inferShapes shapes => exact h.retouched (retouched_inferShapes b shapes)
  | initEmitters target => exact h.retouched (retouched_initEmitters b target)
  | feed id operands =>
    exact h.retouched (retouched_onExpr (fun e => e.retouched_updateShapes operands) b id)
  | edit id change => exact h.retouched (retouched_editExpr (fun _ _ => change.retouched) b id)

end Orderly

theorem Tampered.orderly (h : Tampered b) : Orderly b := by
  induction h with
  | reachable h => exact h.coherent.orderly
  | step _ action ih => exact ih.after action
  | rewired _ id index target ih => exact ih.rewireAlone id index target

/-! ## What the structural check decides -/

/-- The connectors account for all that is read and produced. -/
structure Accounted (b : Body) : Prop where
  /-- Operands read connectors that are live. -/
  live : ∀ id e c, b.expr id = .ok e → c ∈ e.inputConnectors → ∃ k, b.connector c = .ok k
  /-- A connector lists the operands that read it, and nothing else. -/
  readers : ∀ c k, b.connector c = .ok k → ∀ port, port ∈ k.readerPorts ↔
    port.direction = .input ∧
      ∃ e, b.expr port.expr = .ok e ∧ e.inputConnectors[port.index]? = some c
  /-- The connector at an output has that output as its source. -/
  source : ∀ id e j c, b.expr id = .ok e → e.outputConnectors[j]? = some c →
    ∃ k, b.connector c = .ok k ∧ k.sourcePort = ⟨id, .output, j⟩

theorem Orderly.validate_iff (h : Orderly b) : b.validate = .ok () ↔ Accounted b := by
  simp only [validate_eq_ok_iff]
  constructor
  · intro hx
    obtain ⟨hscheduled, hlisted⟩ := hx
    -- Being scheduled and being live are the same, so the check has looked at each expression.
    have hchecked : ∀ id e, b.expr id = .ok e → b.Checked id e := by
      intro id e he
      have hget := expr_eq_ok_iff.mp he
      obtain ⟨e', he', hchecked⟩ := hscheduled id ((h.mem_order id).mpr ⟨e, hget⟩)
      rwa [Option.some.inj (hget.symm.trans he')]
    constructor
    · intro id e c he hc
      obtain ⟨i, hi⟩ := List.mem_iff_getElem?.mp hc
      obtain ⟨k, hk, -⟩ := (hchecked id e he).reads i c hi
      exact ⟨k, connector_eq_ok_iff.mpr hk⟩
    · intro c k hk port
      rw [Connector.mem_readerPorts_iff]
      refine and_congr_right fun _ => ⟨fun hreads => ?_, fun hx => ?_⟩
      · obtain ⟨e, he, hc⟩ := hlisted c k (connector_eq_ok_iff.mp hk) port.slot hreads
        exact ⟨e, expr_eq_ok_iff.mpr he, hc⟩
      · obtain ⟨e, he, hc⟩ := hx
        obtain ⟨k', hk', hreads⟩ := (hchecked port.expr e he).reads port.index c hc
        rwa [Option.some.inj ((connector_eq_ok_iff.mp hk).symm.trans hk')]
    · intro id e j c he hc
      obtain ⟨k, hk, hsource⟩ := (hchecked id e he).feeds j c hc
      exact ⟨k, connector_eq_ok_iff.mpr hk, by rw [Connector.sourcePort, hsource]; rfl⟩
  · intro ha
    constructor
    · intro id hid
      obtain ⟨e, hget⟩ := (h.mem_order id).mp hid
      have he := expr_eq_ok_iff.mpr hget
      refine ⟨e, hget, h.loops id e hget, fun i c hc => ?_, fun j c hc => ?_⟩
      · obtain ⟨k, hk⟩ := ha.live id e c he (List.mem_of_getElem? hc)
        have hlisted := (ha.readers c k hk ⟨id, .input, i⟩).mpr ⟨rfl, e, he, hc⟩
        exact ⟨k, connector_eq_ok_iff.mp hk, (Connector.mem_readerPorts_iff.mp hlisted).2⟩
      · obtain ⟨k, hk, hsource⟩ := ha.source id e j c he hc
        exact ⟨k, connector_eq_ok_iff.mp hk, congrArg Port.slot hsource⟩
    · intro c k hk slot hreads
      have hlisted : slot.input ∈ k.readerPorts := Connector.mem_readerPorts_iff.mpr ⟨rfl, hreads⟩
      obtain ⟨-, e, he, hc⟩ := (ha.readers c k (connector_eq_ok_iff.mpr hk) _).mp hlisted
      exact ⟨e, expr_eq_ok_iff.mp he, hc⟩

/-- A connector that was read still lists the operand that has been rewired alone. -/
theorem Accounted.not_after_rewiring (h : Accounted b) {id : ExprId} {e : Expression} {index : Nat}
    {previous target : ConnectorId} (he : b.expr id = .ok e)
    (hprevious : e.inputConnectors[index]? = some previous) (hne : previous ≠ target) :
    (b.rewireAlone id index target).1 = .ok () ∧ ¬ Accounted (b.rewireAlone id index target).2 := by
  have hrewired : b.rewireAlone id index target = (.ok (), { b with
      exprs := b.exprs.insert id
        (e.modifyWire .input index fun w => { w with connector := target }) }) :=
    editExpr_ok (expr_eq_ok_iff.mp he) (by rw [Expression.rewire_ok hprevious]; rfl)
  rw [hrewired]
  refine ⟨rfl, fun ha => ?_⟩
  obtain ⟨k, hk⟩ := h.live id e previous he (List.mem_of_getElem? hprevious)
  have hlisted := (h.readers previous k hk ⟨id, .input, index⟩).mpr ⟨rfl, e, he, hprevious⟩
  obtain ⟨-, e', he', hreads⟩ := (ha.readers previous k hk ⟨id, .input, index⟩).mp hlisted
  rw [expr_eq_ok_iff, OrderedMap.get?_insert_self] at he'
  obtain rfl := Option.some.inj he'
  rw [Expression.inputConnectors_rewired, List.getElem?_set_self] at hreads
  · exact hne (Option.some.inj hreads).symm
  · exact (List.getElem?_eq_some_iff.mp hprevious).1

/-- Whatever has happened to a body, the structural check succeeds exactly if the connectors account
for all that is read and produced. So it finds every operand of a valid body that has been rewired
alone. -/
theorem validate_decides (h : Tampered b) :
    (b.validate = .ok () ↔ Accounted b) ∧
      ∀ id e index previous target, b.validate = .ok () → b.expr id = .ok e →
        e.inputConnectors[index]? = some previous → previous ≠ target →
        (b.rewireAlone id index target).1 = .ok () ∧
          ∃ err, (b.rewireAlone id index target).2.validate = .error err := by
  refine ⟨h.orderly.validate_iff, fun id e index previous target hvalid he hprevious hne => ?_⟩
  have ha : Accounted b := h.orderly.validate_iff.mp hvalid
  obtain ⟨hok, hbroken⟩ := ha.not_after_rewiring he hprevious hne
  refine ⟨hok, ?_⟩
  rw [← (h.rewired id index target).orderly.validate_iff] at hbroken
  cases hcheck : (b.rewireAlone id index target).2.validate with
  | error err => exact ⟨err, rfl⟩
  | ok => exact absurd hcheck hbroken

/-- Two parameters and a result that reads the first. -/
def pair : Body :=
  (((empty none).after (.push (.make "x" (.parameter .scalar)) [])).after
    (.push (.make "y" (.parameter .scalar)) [])).after (.push (.make "z" .result) [⟨0⟩])

/-- The result was rewired alone to the second parameter, which then was not known to be read and
could be removed. -/
def tangled : Body := ((pair.rewireAlone ⟨2⟩ 0 ⟨1⟩).2).after (.remove ⟨1⟩)

theorem tampered_pair : Tampered pair := .reachable (.step (.step (.step (.empty none) _) _) _)

theorem validate_decides_tangled :
    Tampered tangled ∧ tangled.order = [⟨0⟩, ⟨2⟩] ∧ ¬ Accounted tangled ∧ pair.validate = .ok () ∧
      ∃ err, (pair.rewireAlone ⟨2⟩ 0 ⟨1⟩).2.validate = .error err := by
  have htangled : Tampered tangled := (tampered_pair.rewired ⟨2⟩ 0 ⟨1⟩).step (.remove ⟨1⟩)
  have hvalid : pair.validate = .ok () := by decide
  obtain ⟨e, he, hreads⟩ : ∃ e, pair.expr ⟨2⟩ = .ok e ∧ e.inputConnectors[0]? = some ⟨0⟩ :=
    ⟨_, rfl, by decide⟩
  refine ⟨htangled, by decide, fun ha => ?_, hvalid, ?_⟩
  · exact absurd ((validate_decides htangled).1.mpr ha) (by decide)
  · exact ((validate_decides tampered_pair).2 ⟨2⟩ e 0 ⟨0⟩ ⟨1⟩ hvalid he hreads (by decide)).2

end TensorIR.Body
