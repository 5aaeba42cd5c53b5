import TensorIR.Body.Lowering
import TensorIR.Proofs.Body.Checking
import TensorIR.Proofs.Body.Coherence
import TensorIR.Proofs.Except
import TensorIR.Proofs.Model.WellFormed

/-!
# Lowering is total and faithful

A well-formed model can be lowered, and the body mirrors it: the expression of a number holds the
node at that position, and the connectors are numbered through in the order of the outputs they
belong to. What number an output gets can therefore be read off the model (`Model.connectorOf`), and
so can everything else about the expressions (`LoweredFrom`).

Nodes are pushed one at a time, so the proof goes along the prefixes of the model: the body mirrors
the nodes that were pushed (`Mirrors`), and the next one is admitted because all it refers to is
among them.
-/

set_option autoImplicit false

namespace TensorIR

namespace Model

/-! ## Numbers of outputs and boundary nodes -/

/-- The number of outputs that the nodes before a position have. -/
def outputsBefore (nodes : List ModelNode) (k : Nat) : Nat :=
  (nodes.take k).foldl (fun total n => total + n.node.outputCount) 0

/-- The number of nodes before a position that stand on one side of the graph. -/
def boundaryBefore (nodes : List ModelNode) (k : Nat) (side : Direction) : Nat :=
  (nodes.take k).countP fun n => n.node.op.side? = some side

/-- The connector that an output becomes. -/
def connectorOf (nodes : List ModelNode) (ref : OutputRef) : ConnectorId :=
  ⟨outputsBefore nodes ref.node + ref.port⟩

/-- The connectors that the outputs of the node at a position become. -/
def connectorsOf (nodes : List ModelNode) (k : Nat) (node : Node) : List ConnectorId :=
  (List.range node.outputCount).map fun j => connectorOf nodes ⟨k, j⟩

/-- The role of the node at a position. -/
def roleOf (nodes : List ModelNode) (k : Nat) (node : Node) : Option BoundaryRole :=
  node.op.side?.map fun side => ⟨side, boundaryBefore nodes k side⟩

variable {nodes : List ModelNode} {k : Nat} {n : ModelNode}

theorem outputsBefore_succ (hn : nodes[k]? = some n) :
    outputsBefore nodes (k + 1) = outputsBefore nodes k + n.node.outputCount := by
  simp [outputsBefore, List.take_add_one, hn]

theorem boundaryBefore_succ (hn : nodes[k]? = some n) (side : Direction) :
    boundaryBefore nodes (k + 1) side =
      if n.node.op.side? = some side then boundaryBefore nodes k side + 1
      else boundaryBefore nodes k side := by
  simp only [boundaryBefore, List.take_add_one, hn, Option.toList_some, List.countP_append,
    List.countP_singleton, decide_eq_true_eq]
  split <;> rfl

theorem getElem?_connectorsOf {node : Node} {j : Nat} (hj : j < node.outputCount) :
    (connectorsOf nodes k node)[j]? = some (connectorOf nodes ⟨k, j⟩) := by
  rw [connectorsOf, List.getElem?_map, List.getElem?_range hj]
  rfl

end Model

open Model

/-- The expression is what the node at a position becomes. -/
structure Expression.LoweredFrom (e : Expression) (nodes : List ModelNode) (k : Nat)
    (n : ModelNode) : Prop where
  node : e.node = n.node
  inputs : e.inputConnectors = n.inputs.map (connectorOf nodes)
  outputs : e.outputConnectors = connectorsOf nodes k n.node
  role : e.role = roleOf nodes k n.node

namespace Body

/-- The body is what the nodes before a position become. -/
structure Mirrors (b : Body) (nodes : List ModelNode) (count : Nat) : Prop extends Coherent b where
  order : b.order = (List.range count).map ExprId.mk
  exprs : ∀ k n, k < count → nodes[k]? = some n →
    ∃ e, b.exprs.get? ⟨k⟩ = some e ∧ e.LoweredFrom nodes k n
  nextExpr : b.ids.nextExpr = count
  nextConnector : b.ids.nextConnector = outputsBefore nodes count
  nextOrdinal : ∀ side, b.nextOrdinal side = boundaryBefore nodes count side

variable {b : Body} {nodes : List ModelNode} {count : Nat} {n : ModelNode}

theorem mirrors_empty (nodes : List ModelNode) (provider : Option Provider) :
    Mirrors (empty provider) nodes 0 where
  toCoherent := coherent_empty provider
  order := rfl
  exprs k n hk := absurd hk (Nat.not_lt_zero k)
  nextExpr := rfl
  nextConnector := by simp [empty, outputsBefore]
  nextOrdinal side := by cases side <;> simp [nextOrdinal, empty, boundaryBefore]

namespace Mirrors

theorem length_order (h : Mirrors b nodes count) : b.order.length = count := by
  simp [h.order]

theorem position (h : Mirrors b nodes count) {k : Nat} (hk : k < count) :
    b.position ⟨k⟩ = .ok k := by
  rw [position_eq_ok_iff, idxOf?_eq_some_iff_of_nodup h.nodup, h.order, List.getElem?_map,
    List.getElem?_range hk]
  rfl

/-- What a node before the position outputs is available. -/
theorem feeds (h : Mirrors b nodes count) {ref : OutputRef}
    (href : Resolves (nodes.take count) ref) :
    ref.node < count ∧ b.Feeds ⟨⟨ref.node⟩, ref.port⟩ (connectorOf nodes ref) := by
  obtain ⟨producer, hproducer, hport⟩ := href
  rw [List.getElem?_take, Option.ite_none_right_eq_some] at hproducer
  obtain ⟨hlt, hproducer⟩ := hproducer
  obtain ⟨e, he, hfrom⟩ := h.exprs ref.node producer hlt hproducer
  exact ⟨hlt, e, he, by rw [hfrom.outputs, getElem?_connectorsOf hport]⟩

theorem admits (h : Mirrors b nodes count) {refs : List OutputRef} (node : Node)
    (hrefs : ∀ ref ∈ refs, Resolves (nodes.take count) ref) :
    b.admits b.order.length node (refs.map (connectorOf nodes)) = .ok () := by
  refine admits_eq_ok_iff.mpr ⟨Nat.le_refl _, fun c hc => ?_⟩
  obtain ⟨ref, href, rfl⟩ := List.mem_map.mp hc
  obtain ⟨hlt, hfeeds⟩ := h.feeds (hrefs ref href)
  obtain ⟨k, hk, hsource⟩ := (h.feeds_iff _ _).mp hfeeds
  exact ⟨k, ref.node, hk, by rw [hsource]; exact h.position hlt, by rwa [h.length_order]⟩

theorem freshId (h : Mirrors b nodes count) : b.freshId = ⟨count⟩ := by
  rw [Body.freshId, h.nextExpr]

theorem freshOutputs (h : Mirrors b nodes count) (node : Node) :
    b.freshOutputs node = connectorsOf nodes count node := by
  rw [Body.freshOutputs, IdSupply.freshConnectors, h.nextConnector]
  rfl

theorem nextRole (h : Mirrors b nodes count) (node : Node) :
    b.nextRole node = roleOf nodes count node := by
  simp only [Body.nextRole, roleOf, h.nextOrdinal]

/-- The next node can be pushed. -/
theorem push (h : Mirrors b nodes count) (hn : nodes[count]? = some n)
    (harity : n.inputs.length = n.node.inputCount)
    (hrefs : ∀ ref ∈ n.inputs, Resolves (nodes.take count) ref) :
    ∃ b', b.push n.node (n.inputs.map (connectorOf nodes)) = (.ok ⟨count⟩, b') ∧
      Mirrors b' nodes (count + 1) := by
  have hadm := h.admits n.node hrefs
  have hlength : (n.inputs.map (connectorOf nodes)).length = n.node.inputCount := by
    rw [List.length_map, harity]
  obtain ⟨e, b', hpush, hinserted⟩ := insert_ok hadm hlength
  obtain ⟨hposition, hproduced⟩ := admits_eq_ok_iff.mp hadm
  refine ⟨b', by rw [Body.push, hpush, h.freshId], ?_⟩
  exact
    { h.toCoherent.inserted hposition hproduced hlength hinserted with
      order := by
        rw [hinserted.order, List.insertIdx_length_self, h.order, h.freshId, List.range_succ,
          List.map_append]
        rfl
      exprs := by
        intro k n' hk hn'
        rw [hinserted.exprs, OrderedMap.get?_insert, h.freshId]
        rcases Nat.lt_succ_iff_lt_or_eq.mp hk with hk | rfl
        · have hne : (⟨k⟩ : ExprId) ≠ ⟨count⟩ := fun heq =>
            Nat.ne_of_lt hk (congrArg ExprId.index heq)
          rw [if_neg hne]
          exact h.exprs k n' hk hn'
        · obtain rfl := Option.some.inj (hn.symm.trans hn')
          exact ⟨e, if_pos rfl,
            { node := hinserted.made.node
              inputs := hinserted.inputConnectors hlength
              outputs := hinserted.outputConnectors.trans (h.freshOutputs n.node)
              role := hinserted.made.role.trans (h.nextRole n.node) }⟩
      nextExpr := by
        rw [hinserted.ids, idsAfter, h.nextExpr]
      nextConnector := by
        rw [hinserted.ids, idsAfter, h.nextConnector, outputsBefore_succ hn]
      nextOrdinal := by
        intro side
        rw [hinserted.nextOrdinal, h.nextOrdinal, boundaryBefore_succ hn] }

end Mirrors

/-! ## Lowering all nodes -/

/-- The connectors of the nodes before a position, as lowering remembers them. -/
def remembered (nodes : List ModelNode) (count : Nat) : List (List ConnectorId) :=
  (nodes.take count).mapIdx fun k n => connectorsOf nodes k n.node

theorem lowerRef_ok {ref : OutputRef} (reader : String)
    (href : Resolves (nodes.take count) ref) :
    lowerRef (remembered nodes count) reader ref = .ok (connectorOf nodes ref) := by
  obtain ⟨producer, hproducer, hport⟩ := href
  have hfound : (remembered nodes count)[ref.node]? =
      some (connectorsOf nodes ref.node producer.node) := by
    rw [remembered, List.getElem?_mapIdx, hproducer]
    rfl
  simp [lowerRef, hfound, getElem?_connectorsOf hport]

theorem remembered_succ (hn : nodes[count]? = some n) :
    remembered nodes (count + 1) = remembered nodes count ++ [connectorsOf nodes count n.node] := by
  have hlength : (nodes.take count).length = count := by
    rw [List.length_take, Nat.min_eq_left (Nat.le_of_lt (List.getElem?_eq_some_iff.mp hn).1)]
  rw [remembered, List.take_add_one, hn, Option.toList_some, List.mapIdx_append, remembered,
    hlength, List.mapIdx_singleton, Nat.zero_add]

theorem Mirrors.lowerNodes (h : Mirrors b nodes count) (hwell : (Model.mk nodes).WellFormed)
    (rest : List ModelNode) (hrest : nodes.drop count = rest) (hcount : count ≤ nodes.length) :
    ∃ b', Body.lowerNodes b (remembered nodes count) rest = .ok b' ∧
      Mirrors b' nodes nodes.length := by
  induction rest generalizing b count with
  | nil =>
    obtain rfl : count = nodes.length :=
      Nat.le_antisymm hcount (List.drop_eq_nil_iff.mp hrest)
    exact ⟨b, rfl, h⟩
  | cons n rest ih =>
    have hn : nodes[count]? = some n := by
      have := congrArg (·[0]?) hrest
      simpa using this
    obtain ⟨harity, hrefs⟩ := hwell count n hn
    -- The references of the node resolve, since all of them go to nodes that were pushed before.
    have hinputs : n.inputs.mapM (lowerRef (remembered nodes count) n.node.name) =
        .ok (n.inputs.map (connectorOf nodes)) := by
      rw [mapM_eq_ok_iff, List.map_map]
      exact List.map_congr_left fun ref href => lowerRef_ok n.node.name (hrefs ref href)
    obtain ⟨b', hpush, hmirrors⟩ := h.push hn harity hrefs
    obtain ⟨e, he, hfrom⟩ := hmirrors.exprs count n (Nat.lt_succ_self count) hn
    obtain ⟨b'', hlower, hall⟩ := ih hmirrors (by rw [← List.tail_drop, hrest]; rfl)
      (List.getElem?_eq_some_iff.mp hn).1
    refine ⟨b'', ?_, hall⟩
    rw [Body.lowerNodes, hinputs]
    simp only [bind, Except.bind, hpush, expr_eq_ok_iff.mpr he]
    rw [hfrom.outputs, ← remembered_succ hn]
    exact hlower

theorem mirrors_ofModel {m : Model} (hwell : m.WellFormed) (provider : Option Provider) :
    ∃ b, ofModel m provider = .ok b ∧ Mirrors b m.nodes m.nodes.length :=
  (mirrors_empty m.nodes provider).lowerNodes hwell m.nodes rfl (Nat.zero_le _)

/-! ## What the body looks like -/

theorem Mirrors.expr (h : Mirrors b nodes nodes.length) {k : Nat} (hn : nodes[k]? = some n) :
    ∃ e, b.exprs.get? ⟨k⟩ = some e ∧ e.LoweredFrom nodes k n :=
  h.exprs k n (List.getElem?_eq_some_iff.mp hn).1 hn

/-- Live expressions stem from nodes. -/
theorem Mirrors.node (h : Mirrors b nodes nodes.length) {id : ExprId} {e : Expression}
    (he : b.exprs.get? id = some e) :
    ∃ n, nodes[id.index]? = some n ∧ e.LoweredFrom nodes id.index n := by
  have hmem : id ∈ b.order := (h.mem_order id).mpr ⟨e, he⟩
  rw [h.order, List.mem_map] at hmem
  obtain ⟨k, hk, rfl⟩ := hmem
  obtain ⟨n, hn⟩ : ∃ n, nodes[k]? = some n :=
    ⟨_, List.getElem?_eq_getElem (List.mem_range.mp hk)⟩
  obtain ⟨e', he', hfrom⟩ := h.expr hn
  obtain rfl := Option.some.inj (he.symm.trans he')
  exact ⟨n, hn, hfrom⟩

theorem Mirrors.feeds_connectorOf (h : Mirrors b nodes nodes.length) {ref : OutputRef}
    (href : Resolves nodes ref) : b.Feeds ⟨⟨ref.node⟩, ref.port⟩ (connectorOf nodes ref) :=
  (h.feeds (by rwa [List.take_length])).2

/-- Different outputs become different connectors. -/
theorem Mirrors.connectorOf_inj (h : Mirrors b nodes nodes.length) {ref ref' : OutputRef}
    (href : Resolves nodes ref) (href' : Resolves nodes ref')
    (heq : connectorOf nodes ref = connectorOf nodes ref') : ref = ref' := by
  obtain ⟨k, hk, hsource⟩ := (h.feeds_iff _ _).mp (h.feeds_connectorOf href)
  have hsource' := h.source hk (heq ▸ h.feeds_connectorOf href')
  obtain ⟨node, port⟩ := ref
  obtain ⟨node', port'⟩ := ref'
  simpa using hsource.symm.trans hsource'

theorem resolves_of_take {count : Nat} {ref : OutputRef} (h : Resolves (nodes.take count) ref) :
    Resolves nodes ref := by
  obtain ⟨producer, hproducer, hport⟩ := h
  rw [List.getElem?_take, Option.ite_none_right_eq_some] at hproducer
  exact ⟨producer, hproducer.2, hport⟩

theorem Mirrors.reads_connectorOf_iff (h : Mirrors b nodes nodes.length)
    (hwell : (Model.mk nodes).WellFormed) {ref : OutputRef} (href : Resolves nodes ref)
    {slot : Slot} :
    b.Reads slot (connectorOf nodes ref) ↔
      ∃ n, nodes[slot.expr.index]? = some n ∧ n.inputs[slot.index]? = some ref := by
  constructor
  · intro hx
    obtain ⟨e, he, hc⟩ := hx
    obtain ⟨n, hn, hfrom⟩ := h.node he
    rw [hfrom.inputs, List.getElem?_map, Option.map_eq_some_iff] at hc
    -- The operand refers to some output that became this connector, and only one did.
    obtain ⟨ref', href', heq⟩ := hc
    have hresolves : Resolves nodes ref' :=
      resolves_of_take ((hwell _ n hn).2 ref' (List.mem_of_getElem? href'))
    rw [h.connectorOf_inj hresolves href heq] at href'
    exact ⟨n, hn, href'⟩
  · intro hx
    obtain ⟨n, hn, hc⟩ := hx
    obtain ⟨e, he, hfrom⟩ := h.expr hn
    exact ⟨e, he, by rw [hfrom.inputs, List.getElem?_map, hc]; rfl⟩

/-- An output of a node has its connector, with the references to it as readers. -/
theorem Mirrors.connector (h : Mirrors b nodes nodes.length)
    (hwell : (Model.mk nodes).WellFormed) {ref : OutputRef} (href : Resolves nodes ref) :
    ∃ c, b.connector (connectorOf nodes ref) = .ok c ∧
      c.sourcePort = ⟨⟨ref.node⟩, .output, ref.port⟩ ∧
      ∀ port, port ∈ c.readerPorts ↔ ∃ reader n i,
        nodes[reader]? = some n ∧ n.inputs[i]? = some ref ∧ port = ⟨⟨reader⟩, .input, i⟩ := by
  obtain ⟨c, hc, hsource⟩ := (h.feeds_iff _ _).mp (h.feeds_connectorOf href)
  refine ⟨c, connector_eq_ok_iff.mpr hc, by rw [Connector.sourcePort, hsource]; rfl, fun port => ?_⟩
  have hlisted : c.reads port.slot = true ↔ b.Reads port.slot (connectorOf nodes ref) :=
    ⟨fun hreads => (h.reads_iff _ _).mpr ⟨c, hc, hreads⟩, h.reads hc⟩
  rw [Connector.mem_readerPorts_iff, hlisted, h.reads_connectorOf_iff hwell href]
  constructor
  · intro hx
    obtain ⟨hdirection, n, hn, hi⟩ := hx
    exact ⟨port.expr.index, n, port.index, hn, hi, by rw [← hdirection]⟩
  · intro hx
    obtain ⟨reader, n, i, hn, hi, rfl⟩ := hx
    exact ⟨rfl, n, hn, hi⟩

/-- There are no connectors but those of the outputs. -/
theorem Mirrors.exists_ref (h : Mirrors b nodes nodes.length) {c : ConnectorId} {k : Connector}
    (hk : b.connectors.get? c = some k) :
    ∃ ref, Resolves nodes ref ∧ c = connectorOf nodes ref := by
  obtain ⟨e, he, hc⟩ := h.feeds_source hk
  obtain ⟨n, hn, hfrom⟩ := h.node he
  rw [hfrom.outputs, connectorsOf, List.getElem?_map, Option.map_eq_some_iff] at hc
  obtain ⟨j, hj, rfl⟩ := hc
  exact ⟨⟨k.source.expr.index, j⟩, ⟨n, hn, List.mem_range.mp (List.mem_of_getElem? hj)⟩, rfl⟩

/-- Every model that is built by additions can be lowered, and the body mirrors it: expressions in
the order of the nodes, connectors numbered through in the order of the outputs, references turned
into reads, and ordinals given out in order of appearance. -/
theorem ofModel_built (calls : List ModelNode) (provider : Option Provider) :
    ∃ b, ofModel (Model.built calls) provider = .ok b ∧
      b.order = (List.range (Model.built calls).nodes.length).map ExprId.mk ∧
      (∀ k n, (Model.built calls).nodes[k]? = some n →
        ∃ e, b.expr ⟨k⟩ = .ok e ∧ e.LoweredFrom (Model.built calls).nodes k n) ∧
      (∀ ref, Resolves (Model.built calls).nodes ref →
        ∃ c, b.connector (connectorOf (Model.built calls).nodes ref) = .ok c ∧
          c.sourcePort = ⟨⟨ref.node⟩, .output, ref.port⟩ ∧
          ∀ port, port ∈ c.readerPorts ↔ ∃ reader n i,
            (Model.built calls).nodes[reader]? = some n ∧ n.inputs[i]? = some ref ∧
              port = ⟨⟨reader⟩, .input, i⟩) ∧
      (∀ c k, b.connector c = .ok k →
        ∃ ref, Resolves (Model.built calls).nodes ref ∧
          c = connectorOf (Model.built calls).nodes ref) ∧
      b.validate = .ok () := by
  have hwell := wellFormed_built calls
  obtain ⟨b, hb, h⟩ := mirrors_ofModel hwell provider
  refine ⟨b, hb, h.order, fun k n hn => ?_, fun ref href => h.connector hwell href,
    fun c k hk => h.exists_ref (connector_eq_ok_iff.mp hk), h.toCoherent.validate⟩
  obtain ⟨e, he, hfrom⟩ := h.expr hn
  exact ⟨e, expr_eq_ok_iff.mpr he, hfrom⟩

end Body

end TensorIR
