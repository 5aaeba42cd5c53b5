import TensorIR.Proofs.Body.Tables
import TensorIR.Proofs.Body.Wiring

/-!
# What the structural edits do

An insertion, a removal and a rewiring each have a few possible outcomes, and there is one statement
per edit that lists them all (`insert_cases`, `remove_cases`, `replaceInput_cases`). Where the edit
goes through, a structure says everything about the body it leaves behind: `Inserted`, `Removed`,
`Rewired`. Nothing after this module unfolds an edit.

The edits write in several steps, and each step could fail by itself. That none does once the checks
have passed is the content of these statements: an insertion has looked up every connector it is
going to tell, and for the other two the connectors list the readers they are asked to release. The
last point is where the structure of the body is needed, so removals and rewirings are described for
bodies that are `Wired`.
-/

set_option autoImplicit false

namespace TensorIR.Body

variable {b b' : Body} {position : Nat} {node : Node} {inputs : List ConnectorId}

/-! ## Numbers to come -/

/-- The number that the next expression gets. -/
def freshId (b : Body) : ExprId := ⟨b.ids.nextExpr⟩

/-- The numbers that the connectors at the next node's outputs get. -/
def freshOutputs (b : Body) (node : Node) : List ConnectorId :=
  (b.ids.freshConnectors node.outputCount).1

/-- The numbers left to hand out once a node has got its own. -/
def idsAfter (b : Body) (node : Node) : IdSupply :=
  ⟨b.ids.nextExpr + 1, b.ids.nextConnector + node.outputCount⟩

@[simp] theorem length_freshOutputs (b : Body) (node : Node) :
    (b.freshOutputs node).length = node.outputCount := by
  simp [freshOutputs, IdSupply.freshConnectors]

theorem getElem?_freshOutputs {j : Nat} {c : ConnectorId} :
    (b.freshOutputs node)[j]? = some c ↔
      j < node.outputCount ∧ c = ⟨b.ids.nextConnector + j⟩ := by
  simp only [freshOutputs, IdSupply.freshConnectors, List.getElem?_map, Option.map_eq_some_iff]
  constructor
  · intro hx
    obtain ⟨i, hi, rfl⟩ := hx
    obtain ⟨hlt, rfl⟩ := List.getElem?_eq_some_iff.mp hi
    rw [List.length_range] at hlt
    exact ⟨hlt, by rw [List.getElem_range]⟩
  · intro hx
    obtain ⟨hj, rfl⟩ := hx
    exact ⟨j, List.getElem?_range hj, rfl⟩

theorem nodup_freshOutputs (b : Body) (node : Node) : (b.freshOutputs node).Nodup := by
  refine List.pairwise_map.mpr (List.nodup_range.imp fun {i j} hne h => hne ?_)
  have := congrArg ConnectorId.index h
  simpa using this

theorem le_of_mem_freshOutputs {c : ConnectorId} (hc : c ∈ b.freshOutputs node) :
    b.ids.nextConnector ≤ c.index ∧ c.index < b.ids.nextConnector + node.outputCount := by
  obtain ⟨j, hj⟩ := List.mem_iff_getElem?.mp hc
  obtain ⟨hlt, rfl⟩ := getElem?_freshOutputs.mp hj
  exact ⟨Nat.le_add_right _ _, Nat.add_lt_add_left hlt _⟩

/-- A connector that is there already is none of those to come. -/
theorem Numbered.notMem_freshOutputs (hn : Numbered b) {c : ConnectorId} {k : Connector}
    (hk : b.connectors.get? c = some k) : c ∉ b.freshOutputs node := fun hc =>
  absurd (hn.connector_lt c k hk) (Nat.not_lt.mpr (le_of_mem_freshOutputs hc).1)

theorem Numbered.get?_freshId (hn : Numbered b) : b.exprs.get? b.freshId = none := by
  cases h : b.exprs.get? b.freshId with
  | none => rfl
  | some e => exact absurd (hn.expr_lt _ e h) (Nat.lt_irrefl _)

/-! ## Inserting -/

/-- The connector is live, and its producer runs before the position. -/
def ProducedBefore (b : Body) (position : Nat) (c : ConnectorId) : Prop :=
  ∃ k i, b.connectors.get? c = some k ∧ b.position k.source.expr = .ok i ∧ i < position

theorem producedBefore_eq_ok_iff (node : Node) :
    b.producedBefore position node inputs = .ok () ↔ ∀ c ∈ inputs, b.ProducedBefore position c := by
  induction inputs with
  | nil => simp [producedBefore]
  | cons c cs ih =>
    rw [List.forall_mem_cons, ← ih, producedBefore]
    cases hk : b.connector c with
    | error err => simp [bind, Except.bind, ProducedBefore, get?_of_connector_error hk]
    | ok k =>
      have hget := connector_eq_ok_iff.mp hk
      cases hi : b.position k.source.expr with
      | error err => simp [bind, Except.bind, ProducedBefore, hget, hi]
      | ok i =>
        by_cases hlt : position ≤ i
        · simp [bind, Except.bind, ProducedBefore, hget, hi, hlt, Nat.not_lt.mpr hlt]
        · simp [bind, Except.bind, ProducedBefore, hget, hi, hlt, Nat.not_le.mp hlt]

theorem admits_eq_ok_iff :
    b.admits position node inputs = .ok () ↔
      position ≤ b.order.length ∧ ∀ c ∈ inputs, b.ProducedBefore position c := by
  rw [← producedBefore_eq_ok_iff node, admits]
  by_cases h : b.order.length < position
  · simp [h, Nat.not_le.mpr h]
  · simp [h, Nat.not_lt.mp h]

/-- The role that the next expression gets. -/
def nextRole (b : Body) (node : Node) : Option BoundaryRole :=
  node.op.side?.map fun side => ⟨side, b.nextOrdinal side⟩

theorem lowered_ok {outputs : List ConnectorId} (hin : inputs.length = node.inputCount)
    (hout : outputs.length = node.outputCount) :
    ∃ e, b.lowered node inputs outputs = .ok e ∧
      e.Made node inputs outputs b.provider (b.nextRole node) := by
  obtain ⟨e, he, hmade⟩ : ∃ e, Expression.make node inputs outputs b.provider = .ok e ∧
      e.Made node inputs outputs b.provider none := Expression.make_ok hin hout
  unfold lowered nextRole
  cases hside : node.op.side? with
  | none => exact ⟨e, he, hmade⟩
  | some side =>
    refine ⟨{ e with role := some ⟨side, b.nextOrdinal side⟩ }, ?_, { hmade with role := rfl }⟩
    simp [Expression.makeBoundary, hside, he, Except.map]

theorem lowered_error {outputs : List ConnectorId} (hin : inputs.length ≠ node.inputCount) :
    b.lowered node inputs outputs =
      .error (.arityMismatch .inputConnectors node.inputCount inputs.length) := by
  unfold lowered
  cases hside : node.op.side? with
  | none => exact Expression.make_error hin
  | some side => simp [Expression.makeBoundary, hside, Expression.make_error hin, Except.map]

section TakeOrdinal

variable (b : Body) (side? : Option Direction)

@[simp] theorem exprs_takeOrdinal : (b.takeOrdinal side?).exprs = b.exprs := by
  unfold takeOrdinal; split <;> rfl

@[simp] theorem connectors_takeOrdinal : (b.takeOrdinal side?).connectors = b.connectors := by
  unfold takeOrdinal; split <;> rfl

@[simp] theorem order_takeOrdinal : (b.takeOrdinal side?).order = b.order := by
  unfold takeOrdinal; split <;> rfl

@[simp] theorem ids_takeOrdinal : (b.takeOrdinal side?).ids = b.ids := by
  unfold takeOrdinal; split <;> rfl

@[simp] theorem provider_takeOrdinal : (b.takeOrdinal side?).provider = b.provider := by
  unfold takeOrdinal; split <;> rfl

theorem nextOrdinal_takeOrdinal (side : Direction) : (b.takeOrdinal side?).nextOrdinal side =
    if side? = some side then b.nextOrdinal side + 1 else b.nextOrdinal side := by
  unfold takeOrdinal
  split <;> cases side <;> simp [nextOrdinal]

end TakeOrdinal

/-- The body after an expression for the node was inserted. -/
structure Inserted (b : Body) (position : Nat) (node : Node) (inputs : List ConnectorId)
    (e : Expression) (b' : Body) : Prop where
  id : e.id = some b.freshId
  made : e.Made node inputs (b.freshOutputs node) b.provider (b.nextRole node)
  exprs : b'.exprs = b.exprs.insert b.freshId e
  fresh : ∀ j c, (b.freshOutputs node)[j]? = some c →
    b'.connectors.get? c = some (.fedBy ⟨b.freshId, j⟩)
  old : ∀ c, c ∉ b.freshOutputs node → b'.connectors.get? c =
    (b.connectors.get? c).map (·.addReaders (operandsOn b.freshId 0 inputs c))
  order : b'.order = b.order.insertIdx position b.freshId
  ids : b'.ids = b.idsAfter node
  nextOrdinal : ∀ side, b'.nextOrdinal side =
    if node.op.side? = some side then b.nextOrdinal side + 1 else b.nextOrdinal side
  provider : b'.provider = b.provider

/-- The body in which the numbers and the ordinal for a node are taken. -/
def reserved (b : Body) (node : Node) : Body :=
  takeOrdinal { b with ids := b.idsAfter node } node.op.side?

theorem insert_of_lowered {e : Expression} (hadm : b.admits position node inputs = .ok ())
    (he : b.lowered node inputs (b.freshOutputs node) = .ok e)
    (htold : tellReads admitReader b.freshId (b.reserved node) 0 inputs = (.ok (), b')) :
    b.insert position node inputs = (.ok b.freshId, b'.place position b.freshId e) := by
  simp only [freshOutputs, IdSupply.freshConnectors] at he
  simp only [freshId, reserved, idsAfter] at htold
  simp only [insert, hadm, IdSupply.freshExpr, IdSupply.freshConnectors, he, htold, freshId]

theorem insert_of_not_lowered {err : IrError} (hadm : b.admits position node inputs = .ok ())
    (herr : b.lowered node inputs (b.freshOutputs node) = .error err) :
    b.insert position node inputs = (.error err, { b with ids := b.idsAfter node }) := by
  simp only [freshOutputs, IdSupply.freshConnectors] at herr
  simp only [insert, hadm, IdSupply.freshExpr, IdSupply.freshConnectors, herr, idsAfter]

theorem insert_ok (hadm : b.admits position node inputs = .ok ())
    (harity : inputs.length = node.inputCount) :
    ∃ e b', b.insert position node inputs = (.ok b.freshId, b') ∧
      Inserted b position node inputs e b' := by
  obtain ⟨-, hproduced⟩ := admits_eq_ok_iff.mp hadm
  obtain ⟨e, he, hmade⟩ : ∃ e, b.lowered node inputs (b.freshOutputs node) = .ok e ∧
      e.Made node inputs (b.freshOutputs node) b.provider (b.nextRole node) :=
    lowered_ok harity (length_freshOutputs b node)
  have hfeeds : e.outputConnectors = b.freshOutputs node :=
    hmade.outputConnectors (length_freshOutputs b node)
  -- Taking numbers and an ordinal leaves the connectors alone, so they are as live as before.
  obtain ⟨table, htell, hget⟩ := tellReads_admitReader b.freshId inputs (b.reserved node)
    fun c hc => by
      obtain ⟨k, -, hk, -⟩ := hproduced c hc
      exact ⟨k, by rw [reserved, connectors_takeOrdinal, hk]⟩
  refine ⟨e.install b.freshId,
    place { b.reserved node with connectors := table } position b.freshId e, ?_, ?_⟩
  · exact insert_of_lowered hadm he htell
  · exact
      { id := rfl
        made := { hmade with }
        exprs := by simp [place, reserved]
        fresh := by
          intro j c hj
          rw [← hfeeds] at hj
          exact get?_addSources_of_getElem? (hfeeds ▸ nodup_freshOutputs b node) hj
        old := by
          intro c hc
          rw [← hfeeds] at hc
          refine (get?_addSources_of_notMem (hfeeds ▸ nodup_freshOutputs b node) hc).trans ?_
          rw [hget, reserved, connectors_takeOrdinal]
        order := by simp [place, reserved]
        ids := by simp [place, reserved]
        nextOrdinal := nextOrdinal_takeOrdinal _ _
        provider := by simp [place, reserved] }

/-- An insertion is refused and changes nothing, fails for the number of operands and has used up
numbers, or goes through. -/
theorem insert_cases (b : Body) (position : Nat) (node : Node) (inputs : List ConnectorId) :
    (∃ err, b.admits position node inputs = .error err ∧
      b.insert position node inputs = (.error err, b)) ∨
    (b.admits position node inputs = .ok () ∧ inputs.length ≠ node.inputCount ∧
      b.insert position node inputs =
        (.error (.arityMismatch .inputConnectors node.inputCount inputs.length),
          { b with ids := b.idsAfter node })) ∨
    (b.admits position node inputs = .ok () ∧ inputs.length = node.inputCount ∧
      ∃ e b', b.insert position node inputs = (.ok b.freshId, b') ∧
        Inserted b position node inputs e b') := by
  cases hadm : b.admits position node inputs with
  | error err => exact .inl ⟨err, rfl, by rw [insert, hadm]⟩
  | ok =>
    by_cases harity : inputs.length = node.inputCount
    · exact .inr (.inr ⟨rfl, harity, insert_ok hadm harity⟩)
    · refine .inr (.inl ⟨rfl, harity, ?_⟩)
      exact insert_of_not_lowered hadm (lowered_error harity)

/-! ## Removing -/

/-- Nobody reads the connectors. -/
theorem unread_eq_ok_iff {id : ExprId} {cs : List ConnectorId} :
    b.unread id cs = .ok () ↔
      ∀ c ∈ cs, ∃ k, b.connectors.get? c = some k ∧ ∀ slot, k.reads slot = false := by
  induction cs with
  | nil => simp [unread]
  | cons c cs ih =>
    rw [List.forall_mem_cons, ← ih, unread]
    cases hk : b.connector c with
    | error err => simp [bind, Except.bind, get?_of_connector_error hk]
    | ok k =>
      have hget := connector_eq_ok_iff.mp hk
      cases hports : k.readerPorts with
      | nil =>
        have hnone : ∀ slot, k.reads slot = false := fun slot =>
          Bool.eq_false_iff.mpr fun hreads => by
            have : slot.input ∈ k.readerPorts := Connector.mem_readerPorts_iff.mpr ⟨rfl, hreads⟩
            rw [hports] at this
            cases this
        simp [bind, Except.bind, hports, hget, hnone]
      | cons reader readers =>
        have hmem : reader ∈ k.readerPorts := by rw [hports]; exact List.mem_cons_self ..
        have hreads := (Connector.mem_readerPorts_iff.mp hmem).2
        have : ¬ ∀ slot, k.reads slot = false := by
          intro hnone
          rw [hnone] at hreads
          cases hreads
        simp [bind, Except.bind, hports, hget, this]

/-- The body after an expression was removed. -/
structure Removed (b : Body) (id : ExprId) (e : Expression) (b' : Body) : Prop where
  exprs : b'.exprs = b.exprs.erase id
  connectors : ∀ c, b'.connectors.get? c =
    if c ∈ e.outputConnectors then none
    else (b.connectors.get? c).map (·.dropReaders (operandsOn id 0 e.inputConnectors c))
  order : b'.order = b.order.filter (· ≠ id)
  ids : b'.ids = b.ids
  nextInput : b'.nextInput = b.nextInput
  nextOutput : b'.nextOutput = b.nextOutput
  provider : b'.provider = b.provider

/-- Nobody reads an output of the expression. -/
def Unread (b : Body) (e : Expression) : Prop := ∀ c ∈ e.outputConnectors, ∀ slot, ¬ b.Reads slot c

theorem Wired.unread_iff (h : Wired b) {id : ExprId} {e : Expression}
    (he : b.exprs.get? id = some e) :
    b.unread id e.outputConnectors = .ok () ↔ b.Unread e := by
  rw [unread_eq_ok_iff]
  constructor
  · intro hunread c hc slot hr
    obtain ⟨k, hk, hnone⟩ := hunread c hc
    exact absurd (h.reads hk hr) (by simp [hnone])
  · intro hunread c hc
    obtain ⟨j, hj⟩ := Feeds.of_mem he hc
    obtain ⟨k, hk, -⟩ := (h.feeds_iff _ c).mp hj
    refine ⟨k, hk, fun slot => Bool.eq_false_iff.mpr fun hreads => ?_⟩
    exact hunread c hc slot ((h.reads_iff slot c).mpr ⟨k, hk, hreads⟩)

/-- A removal is refused and changes nothing, or goes through. -/
theorem Wired.remove_cases (h : Wired b) (id : ExprId) :
    (∃ err, (∀ e, b.exprs.get? id = some e → ¬ b.Unread e) ∧ b.remove id = (.error err, b)) ∨
    ∃ e b', b.exprs.get? id = some e ∧ b.Unread e ∧ b.remove id = (.ok (), b') ∧
      Removed b id e b' := by
  cases he : b.expr id with
  | error err =>
    refine .inl ⟨err, fun e hget => ?_, by rw [remove, he]⟩
    rw [expr_eq_ok_iff.mpr hget] at he
    cases he
  | ok e =>
    have hget := expr_eq_ok_iff.mp he
    cases hunread : b.unread id e.outputConnectors with
    | error err =>
      refine .inl ⟨err, fun e' hget' hnone => ?_, by rw [remove, he]; simp only [hunread]⟩
      obtain rfl := Option.some.inj (hget.symm.trans hget')
      rw [(h.unread_iff hget).mpr hnone] at hunread
      cases hunread
    | ok =>
      -- Each operand is listed by the connector it reads, so all of them are released.
      obtain ⟨table, htell, hdrop⟩ := tellReads_unregister id e.inputConnectors b
        fun k c hk => (h.reads_iff ⟨id, k⟩ c).mp ⟨e, hget, hk⟩
      refine .inr ⟨e, detach { b with connectors := table } id e.outputConnectors, hget,
        (h.unread_iff hget).mp hunread, ?_, ?_⟩
      · rw [remove, he]
        simp only [hunread, htell]
      · exact
          { exprs := rfl
            connectors := fun c => get?_foldl_erase.trans (by rw [hdrop])
            order := rfl
            ids := rfl
            nextInput := rfl
            nextOutput := rfl
            provider := rfl }

/-! ## Rewiring -/

/-- The expression may read the connector: it is live, and its producer runs before. -/
def MayRead (b : Body) (reader : ExprId) (target : ConnectorId) : Prop :=
  ∃ k, b.connectors.get? target = some k ∧ b.RunsBefore k.source.expr reader

theorem mayRead_eq_ok_iff (hnodup : b.order.Nodup) {port : Port} {target : ConnectorId} :
    b.mayRead port target = .ok () ↔ b.MayRead port.expr target := by
  simp only [MayRead, runsBefore_iff hnodup]
  rw [mayRead]
  cases hk : b.connector target with
  | error err => simp [bind, Except.bind, get?_of_connector_error hk]
  | ok k =>
    have hget := connector_eq_ok_iff.mp hk
    cases hi : b.position k.source.expr with
    | error err => simp [bind, Except.bind, hget, hi]
    | ok i =>
      cases hj : b.position port.expr with
      | error err => simp [bind, Except.bind, hget, hi]
      | ok j =>
        by_cases hle : j ≤ i
        · simp [bind, Except.bind, hget, hi, hle, Nat.not_lt.mpr hle]
        · simp [bind, Except.bind, hget, hi, hle, Nat.not_le.mp hle]

/-- What a rewiring makes of a connector. -/
def relisted (slot : Slot) (previous target c : ConnectorId) (k : Connector) : Connector :=
  if c = target then k.addReader slot else if c = previous then k.dropReader slot else k

@[simp] theorem source_relisted (slot : Slot) (previous target c : ConnectorId) (k : Connector) :
    (relisted slot previous target c k).source = k.source := by
  unfold relisted
  split
  · rfl
  · split <;> rfl

/-- The body after an operand that read one connector was made to read another. -/
structure Rewired (b : Body) (slot : Slot) (previous target : ConnectorId) (b' : Body) :
    Prop where
  exprs : ∃ e, b.exprs.get? slot.expr = some e ∧ b'.exprs = b.exprs.insert slot.expr
    (e.modifyWire .input slot.index fun w => { w with connector := target })
  connectors : ∀ c,
    b'.connectors.get? c = (b.connectors.get? c).map (relisted slot previous target c)
  order : b'.order = b.order
  ids : b'.ids = b.ids
  nextInput : b'.nextInput = b.nextInput
  nextOutput : b'.nextOutput = b.nextOutput
  provider : b'.provider = b.provider

theorem Wired.moveRead_ok (h : Wired b) {slot : Slot} {previous target : ConnectorId}
    {k : Connector} (hreads : b.Reads slot previous) (hne : previous ≠ target)
    (hk : b.connectors.get? target = some k) :
    ∃ b', b.moveRead slot.input previous target = (.ok (), b') ∧
      Rewired b slot previous target b' := by
  obtain ⟨released, hreleased, hlisted⟩ := (h.reads_iff slot previous).mp hreads
  obtain ⟨e, he, hprevious⟩ := hreads
  -- Releasing the operand, rewiring it and registering it again each find what they look for.
  have hrelease : b.editConnector previous (·.unregister slot.input) =
      (.ok (), { b with connectors := b.connectors.insert previous (released.dropReader slot) }) :=
    editConnector_ok hreleased (Connector.unregister_input released slot hlisted)
  have hrewire : Body.editExpr
      { b with connectors := b.connectors.insert previous (released.dropReader slot) } slot.expr
      (fun e => (e.rewire slot.index target).map Prod.snd) =
      (.ok (), { b with
        exprs := b.exprs.insert slot.expr
          (e.modifyWire .input slot.index fun w => { w with connector := target })
        connectors := b.connectors.insert previous (released.dropReader slot) }) :=
    editExpr_ok he (by rw [Expression.rewire_ok hprevious]; rfl)
  have htarget :
      (b.connectors.insert previous (released.dropReader slot)).get? target = some k := by
    rw [OrderedMap.get?_insert, if_neg (Ne.symm hne), hk]
  refine ⟨{ b with
    exprs := b.exprs.insert slot.expr
      (e.modifyWire .input slot.index fun w => { w with connector := target })
    connectors := (b.connectors.insert previous (released.dropReader slot)).insert target
      (k.addReader slot) }, ?_, ?_⟩
  · unfold moveRead
    rw [hrelease]
    dsimp only [Slot.input]
    rw [hrewire]
    exact editConnector_ok htarget rfl
  · exact
      { exprs := ⟨e, he, rfl⟩
        connectors := by
          intro c
          rw [OrderedMap.get?_insert, OrderedMap.get?_insert]
          by_cases hc : c = target
          · subst hc
            simp [relisted, hk]
          · by_cases hc' : c = previous
            · subst hc'
              simp [relisted, hc, hreleased]
            · have : relisted slot previous target c = id := funext fun k => by
                simp [relisted, hc, hc']
              simp [this, hc, hc']
        order := rfl
        ids := rfl
        nextInput := rfl
        nextOutput := rfl
        provider := rfl }

/-- The port is an operand of a live expression, and it reads the connector already or may do so. -/
def Rewirable (b : Body) (port : Port) (target : ConnectorId) : Prop :=
  port.direction = .input ∧
    ∃ previous, b.Reads port.slot previous ∧ (previous = target ∨ b.MayRead port.expr target)

/-- A rewiring is refused and changes nothing, has nothing to change, or goes through. -/
theorem Wired.replaceInput_cases (h : Wired b) (port : Port) (target : ConnectorId) :
    (∃ err, ¬ b.Rewirable port target ∧ b.replaceInput port target = (.error err, b)) ∨
    (b.Rewirable port target ∧ b.replaceInput port target = (.ok (), b)) ∨
    ∃ previous b', b.Rewirable port target ∧ b.Reads port.slot previous ∧
      b.MayRead port.expr target ∧ b.replaceInput port target = (.ok (), b') ∧
      Rewired b port.slot previous target b' := by
  obtain ⟨expr, direction, index⟩ := port
  cases direction with
  | output =>
    refine .inl ⟨.invalidState (.notInput ⟨expr, .output, index⟩), ?_, rfl⟩
    intro hx
    obtain ⟨hdirection, -⟩ := hx
    cases hdirection
  | input =>
    cases hreads : b.expr expr >>= (·.connector .input index) with
    | error err =>
      refine .inl ⟨err, ?_, by simp only [replaceInput, hreads]⟩
      intro hx
      obtain ⟨-, previous, hprevious, -⟩ := hx
      have hread : b.expr expr >>= (·.connector .input index) = .ok previous :=
        reads_iff_connector.mpr hprevious
      rw [hreads] at hread
      cases hread
    | ok previous =>
      have hprevious : b.Reads ⟨expr, index⟩ previous := reads_iff_connector.mp hreads
      by_cases heq : previous = target
      · subst heq
        refine .inr (.inl ⟨⟨rfl, previous, hprevious, .inl rfl⟩, ?_⟩)
        simp only [replaceInput, hreads, if_true]
      · cases hcheck : b.mayRead ⟨expr, .input, index⟩ target with
        | error err =>
          refine .inl ⟨err, ?_, by simp only [replaceInput, hreads, heq, if_false, hcheck]⟩
          intro hx
          obtain ⟨-, previous', hprevious', rfl | hmay⟩ := hx
          · exact heq (reads_unique hprevious hprevious')
          · rw [(mayRead_eq_ok_iff h.nodup).mpr hmay] at hcheck
            cases hcheck
        | ok =>
          have hmay : b.MayRead expr target := (mayRead_eq_ok_iff h.nodup).mp hcheck
          have hlive : ∃ k, b.connectors.get? target = some k := hmay.imp fun _ hk => hk.1
          obtain ⟨k, hk⟩ := hlive
          obtain ⟨b', hmove, hrewired⟩ := h.moveRead_ok hprevious heq hk
          refine .inr (.inr ⟨previous, b', ⟨rfl, previous, hprevious, .inr hmay⟩, hprevious,
            hmay, ?_, hrewired⟩)
          simp only [replaceInput, hreads, heq, if_false, hcheck]
          exact hmove

end TensorIR.Body
