import Mathlib.Data.List.InsertIdx
import TensorIR.Proofs.Body.Outcomes
import TensorIR.Proofs.Body.Retouching

/-!
# Structural edits keep a body coherent

For each of the three edits: who reads and who feeds what afterwards, and from it that a coherent
body stays coherent. The arguments do not look at how an edit is carried out; all they use is the
description of its result.

What an edit must not break is the order. An insertion leaves the others in their order and comes
after what it reads, a removal takes nothing away that is read, and a rewired operand reads
something that runs before it.
-/

set_option autoImplicit false

namespace TensorIR.Body

variable {b b' : Body}

/-! ## Insertion -/

section Insertion

variable {position : Nat} {node : Node} {inputs : List ConnectorId} {e : Expression}

theorem Inserted.inputConnectors (hi : Inserted b position node inputs e b')
    (harity : inputs.length = node.inputCount) : e.inputConnectors = inputs :=
  hi.made.inputConnectors harity

theorem Inserted.outputConnectors (hi : Inserted b position node inputs e b') :
    e.outputConnectors = b.freshOutputs node :=
  hi.made.outputConnectors (length_freshOutputs b node)

theorem Inserted.reads_iff (hi : Inserted b position node inputs e b') (hn : Numbered b)
    (harity : inputs.length = node.inputCount) {slot : Slot} {c : ConnectorId} :
    b'.Reads slot c ↔
      (slot.expr = b.freshId ∧ inputs[slot.index]? = some c) ∨ b.Reads slot c := by
  unfold Reads
  rw [hi.exprs, OrderedMap.get?_insert]
  by_cases h : slot.expr = b.freshId
  · simp [h, hn.get?_freshId, hi.inputConnectors harity]
  · simp [h]

theorem Inserted.feeds_iff (hi : Inserted b position node inputs e b') (hn : Numbered b)
    {slot : Slot} {c : ConnectorId} :
    b'.Feeds slot c ↔
      (slot.expr = b.freshId ∧ (b.freshOutputs node)[slot.index]? = some c) ∨ b.Feeds slot c := by
  unfold Feeds
  rw [hi.exprs, OrderedMap.get?_insert]
  by_cases h : slot.expr = b.freshId
  · simp [h, hn.get?_freshId, hi.outputConnectors]
  · simp [h]

/-- A connector is one of the new ones, which nobody reads, or was there before. -/
theorem Inserted.connector_cases (hi : Inserted b position node inputs e b') {c : ConnectorId}
    {k' : Connector} (hk' : b'.connectors.get? c = some k') :
    (∃ j, (b.freshOutputs node)[j]? = some c ∧ k' = .fedBy ⟨b.freshId, j⟩) ∨
    ∃ k, b.connectors.get? c = some k ∧ k' = k.addReaders (operandsOn b.freshId 0 inputs c) := by
  by_cases hc : c ∈ b.freshOutputs node
  · obtain ⟨j, hj⟩ := List.mem_iff_getElem?.mp hc
    rw [hi.fresh j c hj] at hk'
    exact .inl ⟨j, hj, (Option.some.inj hk').symm⟩
  · rw [hi.old c hc, Option.map_eq_some_iff] at hk'
    obtain ⟨k, hk, rfl⟩ := hk'
    exact .inr ⟨k, hk, rfl⟩

/-- A connector that was there before has the new operands as additional readers. -/
theorem Inserted.get?_old (hi : Inserted b position node inputs e b') (hn : Numbered b)
    {c : ConnectorId} {k : Connector} (hk : b.connectors.get? c = some k) :
    b'.connectors.get? c = some (k.addReaders (operandsOn b.freshId 0 inputs c)) := by
  rw [hi.old c (hn.notMem_freshOutputs hk), hk]
  rfl

/-- What runs before the position runs before what is inserted there. -/
theorem Inserted.runsBefore (hi : Inserted b position node inputs e b') (hw : Wired b)
    (hposition : position ≤ b.order.length) {p : ExprId} {i : Nat} (hp : b.position p = .ok i)
    (hlt : i < position) : b'.RunsBefore p b.freshId := by
  rw [position_eq_ok_iff, idxOf?_eq_some_iff_of_nodup hw.nodup] at hp
  rw [RunsBefore, hi.order, pair_sublist_iff]
  refine ⟨i, position, hlt, ?_, ?_⟩
  · rw [List.getElem?_insertIdx_of_lt hlt, hp]
  · rw [List.getElem?_insertIdx_self, if_pos hposition]

/-- The number that comes next is not scheduled yet. -/
theorem Coherent.freshId_notMem (h : Coherent b) : b.freshId ∉ b.order := by
  intro hmem
  obtain ⟨e, he⟩ := (h.mem_order b.freshId).mp hmem
  rw [h.get?_freshId] at he
  cases he

/-- The new expression is scheduled and live, the others as they were. -/
theorem Inserted.mem_order (hi : Inserted b position node inputs e b')
    (hposition : position ≤ b.order.length)
    (h : ∀ id, id ∈ b.order ↔ ∃ e, b.exprs.get? id = some e) (id : ExprId) :
    id ∈ b'.order ↔ ∃ e, b'.exprs.get? id = some e := by
  rw [hi.order, List.mem_insertIdx hposition, hi.exprs, OrderedMap.get?_insert, h]
  by_cases hid : id = b.freshId <;> simp [hid]

theorem Wired.inserted (h : Coherent b) (hposition : position ≤ b.order.length)
    (hproduced : ∀ c ∈ inputs, b.ProducedBefore position c)
    (harity : inputs.length = node.inputCount) (hi : Inserted b position node inputs e b') :
    Wired b' where
  nodup := by
    rw [hi.order, (List.perm_insertIdx b.freshId b.order hposition).nodup_iff]
    exact List.nodup_cons.mpr ⟨h.freshId_notMem, h.nodup⟩
  mem_order := hi.mem_order hposition h.mem_order
  reads_iff slot c := by
    rw [hi.reads_iff h.toNumbered harity]
    -- The new operands are listed because they were registered, the others because they still are.
    constructor
    · intro hx
      rcases hx with ⟨hslot, hc⟩ | hr
      · obtain ⟨k, -, hk, -⟩ := hproduced c (List.mem_of_getElem? hc)
        refine ⟨_, hi.get?_old h.toNumbered hk, Connector.reads_addReaders.mpr (.inl ?_)⟩
        exact mem_operandsOn_zero.mpr ⟨hslot, hc⟩
      · obtain ⟨k, hk, hreads⟩ := (h.reads_iff slot c).mp hr
        exact ⟨_, hi.get?_old h.toNumbered hk, Connector.reads_addReaders.mpr (.inr hreads)⟩
    · intro hx
      obtain ⟨k', hk', hreads⟩ := hx
      rcases hi.connector_cases hk' with ⟨j, -, rfl⟩ | ⟨k, hk, rfl⟩
      · simp at hreads
      · rcases Connector.reads_addReaders.mp hreads with hmem | hreads
        · exact .inl (mem_operandsOn_zero.mp hmem)
        · exact .inr ((h.reads_iff slot c).mpr ⟨k, hk, hreads⟩)
  feeds_iff slot c := by
    rw [hi.feeds_iff h.toNumbered]
    constructor
    · intro hx
      rcases hx with ⟨hslot, hc⟩ | hf
      · exact ⟨_, hi.fresh slot.index c hc, by rw [Connector.source_fedBy, ← hslot]⟩
      · obtain ⟨k, hk, hsource⟩ := (h.feeds_iff slot c).mp hf
        exact ⟨_, hi.get?_old h.toNumbered hk, by rw [Connector.source_addReaders, hsource]⟩
    · intro hx
      obtain ⟨k', hk', rfl⟩ := hx
      rcases hi.connector_cases hk' with ⟨j, hj, rfl⟩ | ⟨k, hk, rfl⟩
      · exact .inl ⟨rfl, hj⟩
      · rw [Connector.source_addReaders]
        exact .inr (h.feeds_source hk)
  ordered slot c k' hr hk' := by
    rcases hi.connector_cases hk' with ⟨j, hj, rfl⟩ | ⟨k, hk, rfl⟩
    · -- Nobody reads a connector that has just been made.
      have hmem : c ∈ b.freshOutputs node := List.mem_of_getElem? hj
      rcases (hi.reads_iff h.toNumbered harity).mp hr with ⟨-, hc⟩ | hr
      · obtain ⟨k, -, hk, -⟩ := hproduced c (List.mem_of_getElem? hc)
        exact absurd hmem (h.notMem_freshOutputs hk)
      · obtain ⟨k, hk⟩ := h.live_of_reads hr
        exact absurd hmem (h.notMem_freshOutputs hk)
    · rw [Connector.source_addReaders]
      rcases (hi.reads_iff h.toNumbered harity).mp hr with ⟨hslot, hc⟩ | hr
      · obtain ⟨k₀, i, hk₀, hp, hlt⟩ := hproduced c (List.mem_of_getElem? hc)
        obtain rfl := Option.some.inj (hk.symm.trans hk₀)
        rw [hslot]
        exact hi.runsBefore h.toWired hposition hp hlt
      · refine (h.ordered slot c k hr hk).trans ?_
        rw [hi.order]
        exact List.sublist_insertIdx ..

/-- The new role is the next one of its side. -/
theorem nextRole_eq_some_iff {role : BoundaryRole} :
    b.nextRole node = some role ↔
      node.op.side? = some role.side ∧ role.ordinal = b.nextOrdinal role.side := by
  obtain ⟨side, ordinal⟩ := role
  simp only [nextRole, Option.map_eq_some_iff, BoundaryRole.mk.injEq]
  constructor
  · intro hx
    obtain ⟨side', hside, rfl, rfl⟩ := hx
    exact ⟨hside, rfl⟩
  · intro hx
    obtain ⟨hside, rfl⟩ := hx
    exact ⟨side, hside, rfl, rfl⟩

theorem Inserted.expr_cases (hi : Inserted b position node inputs e b') {id : ExprId}
    {e' : Expression} (he' : b'.exprs.get? id = some e') :
    (id = b.freshId ∧ e' = e) ∨ (id ≠ b.freshId ∧ b.exprs.get? id = some e') := by
  rw [hi.exprs, OrderedMap.get?_insert] at he'
  by_cases hid : id = b.freshId
  · rw [if_pos hid] at he'
    exact .inl ⟨hid, (Option.some.inj he').symm⟩
  · rw [if_neg hid] at he'
    exact .inr ⟨hid, he'⟩

theorem Numbered.inserted (h : Numbered b) (hi : Inserted b position node inputs e b') :
    Numbered b' where
  installed id e' he' := by
    rw [hi.provider]
    rcases hi.expr_cases he' with ⟨rfl, rfl⟩ | ⟨-, he'⟩
    · exact
        { id := hi.id
          side := by
            rw [hi.made.role, hi.made.node, nextRole]
            cases node.op.side? <;> rfl
          strategy := by rw [hi.made.strategy, hi.made.node]
          loops := by rw [hi.made.loops]; exact List.nodup_nil }
    · exact h.installed id e' he'
  expr_lt id e' he' := by
    rw [hi.ids]
    rcases hi.expr_cases he' with ⟨rfl, -⟩ | ⟨-, he'⟩
    · exact Nat.lt_succ_self _
    · exact Nat.lt_succ_of_lt (h.expr_lt id e' he')
  connector_lt c k' hk' := by
    rw [hi.ids]
    rcases hi.connector_cases hk' with ⟨j, hj, -⟩ | ⟨k, hk, -⟩
    · exact (le_of_mem_freshOutputs (List.mem_of_getElem? hj)).2
    · exact Nat.lt_add_right _ (h.connector_lt c k hk)
  ordinal_lt id e' role he' hrole := by
    rw [hi.nextOrdinal]
    rcases hi.expr_cases he' with ⟨-, rfl⟩ | ⟨-, he'⟩
    · rw [hi.made.role, nextRole_eq_some_iff] at hrole
      rw [if_pos hrole.1, hrole.2]
      omega
    · have := h.ordinal_lt id e' role he' hrole
      split <;> omega
  ordinal_mono id₁ e₁ role₁ id₂ e₂ role₂ he₁ hrole₁ he₂ hrole₂ hside hlt := by
    rcases hi.expr_cases he₁ with ⟨rfl, -⟩ | ⟨-, he₁⟩
    · -- The new number is above all others.
      rcases hi.expr_cases he₂ with ⟨rfl, -⟩ | ⟨-, he₂⟩
      · exact absurd hlt (Nat.lt_irrefl _)
      · exact absurd (h.expr_lt id₂ e₂ he₂) (Nat.not_lt.mpr (Nat.le_of_lt hlt))
    · rcases hi.expr_cases he₂ with ⟨-, rfl⟩ | ⟨-, he₂⟩
      · rw [hi.made.role, nextRole_eq_some_iff] at hrole₂
        rw [hrole₂.2, ← hside]
        exact h.ordinal_lt id₁ e₁ role₁ he₁ hrole₁
      · exact h.ordinal_mono id₁ e₁ role₁ id₂ e₂ role₂ he₁ hrole₁ he₂ hrole₂ hside hlt

theorem Coherent.inserted (h : Coherent b) (hposition : position ≤ b.order.length)
    (hproduced : ∀ c ∈ inputs, b.ProducedBefore position c)
    (harity : inputs.length = node.inputCount) (hi : Inserted b position node inputs e b') :
    Coherent b' :=
  { Wired.inserted h hposition hproduced harity hi, h.toNumbered.inserted hi with }

end Insertion

/-! ## Removal -/

section Removal

variable {id : ExprId} {e : Expression}

theorem Removed.reads_iff (hr : Removed b id e b') {slot : Slot} {c : ConnectorId} :
    b'.Reads slot c ↔ slot.expr ≠ id ∧ b.Reads slot c := by
  unfold Reads
  rw [hr.exprs, OrderedMap.get?_erase]
  by_cases h : slot.expr = id <;> simp [h]

theorem Removed.feeds_iff (hr : Removed b id e b') {slot : Slot} {c : ConnectorId} :
    b'.Feeds slot c ↔ slot.expr ≠ id ∧ b.Feeds slot c := by
  unfold Feeds
  rw [hr.exprs, OrderedMap.get?_erase]
  by_cases h : slot.expr = id <;> simp [h]

theorem Removed.connector_iff (hr : Removed b id e b') {c : ConnectorId} {k' : Connector} :
    b'.connectors.get? c = some k' ↔
      c ∉ e.outputConnectors ∧ ∃ k, b.connectors.get? c = some k ∧
        k' = k.dropReaders (operandsOn id 0 e.inputConnectors c) := by
  rw [hr.connectors]
  by_cases hc : c ∈ e.outputConnectors
  · simp [hc]
  · simp only [hc, if_false, not_false_eq_true, true_and, Option.map_eq_some_iff]
    exact exists_congr fun k => and_congr_right fun _ => eq_comm

/-- The connectors that an expression feeds are the ones it is the source of. -/
theorem Wired.source_expr_iff (h : Wired b) (he : b.exprs.get? id = some e) {c : ConnectorId}
    {k : Connector} (hk : b.connectors.get? c = some k) :
    k.source.expr = id ↔ c ∈ e.outputConnectors := by
  constructor
  · rintro rfl
    obtain ⟨e', he', hc⟩ := h.feeds_source hk
    obtain rfl := Option.some.inj (he.symm.trans he')
    exact List.mem_of_getElem? hc
  · intro hc
    obtain ⟨j, hj⟩ := Feeds.of_mem he hc
    rw [h.source hk hj]

theorem Wired.removed (h : Wired b) (he : b.exprs.get? id = some e) (hunread : b.Unread e)
    (hr : Removed b id e b') : Wired b' where
  nodup := by
    rw [hr.order]
    exact h.nodup.filter _
  mem_order id' := by
    rw [hr.order, List.mem_filter, h.mem_order, hr.exprs, OrderedMap.get?_erase]
    by_cases hid : id' = id <;> simp [hid]
  reads_iff slot c := by
    simp only [hr.reads_iff, hr.connector_iff]
    constructor
    · intro hx
      obtain ⟨hne, hreads⟩ := hx
      -- The connector is still there: it is read, and no output of the removed expression is.
      obtain ⟨k, hk, hlisted⟩ := (h.reads_iff slot c).mp hreads
      refine ⟨_, ⟨fun hc => hunread c hc slot hreads, k, hk, rfl⟩, ?_⟩
      refine Connector.reads_dropReaders.mpr ⟨fun hmem => ?_, hlisted⟩
      exact hne (mem_operandsOn_zero.mp hmem).1
    · intro hx
      obtain ⟨_, ⟨-, k, hk, rfl⟩, hlisted⟩ := hx
      obtain ⟨hkept, hlisted⟩ := Connector.reads_dropReaders.mp hlisted
      have hreads : b.Reads slot c := (h.reads_iff slot c).mpr ⟨k, hk, hlisted⟩
      -- An operand of the removed expression would have been released.
      refine ⟨fun hid => hkept (mem_operandsOn_zero.mpr ⟨hid, ?_⟩), hreads⟩
      obtain ⟨e', he', hc⟩ := hreads
      rw [hid] at he'
      rwa [Option.some.inj (he.symm.trans he')]
  feeds_iff slot c := by
    simp only [hr.feeds_iff, hr.connector_iff]
    constructor
    · intro hx
      obtain ⟨hne, hfeeds⟩ := hx
      obtain ⟨k, hk, rfl⟩ := (h.feeds_iff slot c).mp hfeeds
      exact ⟨_, ⟨fun hc => hne ((h.source_expr_iff he hk).mpr hc), k, hk, rfl⟩,
        Connector.source_dropReaders ..⟩
    · intro hx
      obtain ⟨_, ⟨hc, k, hk, rfl⟩, rfl⟩ := hx
      rw [Connector.source_dropReaders]
      exact ⟨fun hid => hc ((h.source_expr_iff he hk).mp hid), h.feeds_source hk⟩
  ordered slot c k' hreads hk' := by
    obtain ⟨hc, k, hk, rfl⟩ := hr.connector_iff.mp hk'
    obtain ⟨hreader, hreads⟩ := hr.reads_iff.mp hreads
    have hsource : k.source.expr ≠ id := fun hid => hc ((h.source_expr_iff he hk).mp hid)
    have hbefore := (h.ordered slot c k hreads hk).filter (fun id' => decide (id' ≠ id))
    rw [RunsBefore, hr.order, Connector.source_dropReaders]
    simpa [hreader, hsource] using hbefore

theorem Removed.before (hr : Removed b id e b') {id' : ExprId} {e' : Expression}
    (he' : b'.exprs.get? id' = some e') : b.exprs.get? id' = some e' := by
  rw [hr.exprs, OrderedMap.get?_erase] at he'
  by_cases hid : id' = id
  · rw [if_pos hid] at he'
    cases he'
  · rwa [if_neg hid] at he'

theorem Removed.nextOrdinal (hr : Removed b id e b') (side : Direction) :
    b'.nextOrdinal side = b.nextOrdinal side := by
  cases side with
  | input => exact hr.nextInput
  | output => exact hr.nextOutput

theorem Numbered.removed (h : Numbered b) (hr : Removed b id e b') : Numbered b' where
  installed id' e' he' := by
    rw [hr.provider]
    exact h.installed id' e' (hr.before he')
  expr_lt id' e' he' := by
    rw [hr.ids]
    exact h.expr_lt id' e' (hr.before he')
  connector_lt c k' hk' := by
    obtain ⟨-, k, hk, -⟩ := hr.connector_iff.mp hk'
    rw [hr.ids]
    exact h.connector_lt c k hk
  ordinal_lt id' e' role he' hrole := by
    rw [hr.nextOrdinal]
    exact h.ordinal_lt id' e' role (hr.before he') hrole
  ordinal_mono id₁ e₁ role₁ id₂ e₂ role₂ he₁ hrole₁ he₂ hrole₂ :=
    h.ordinal_mono id₁ e₁ role₁ id₂ e₂ role₂ (hr.before he₁) hrole₁ (hr.before he₂) hrole₂

theorem Coherent.removed (h : Coherent b) (he : b.exprs.get? id = some e) (hunread : b.Unread e)
    (hr : Removed b id e b') : Coherent b' :=
  { h.toWired.removed he hunread hr, h.toNumbered.removed hr with }

end Removal

/-! ## Rewiring -/

section Rewiring

variable {slot : Slot} {previous target : ConnectorId}

theorem Rewired.reads_iff (hr : Rewired b slot previous target b')
    (hprevious : b.Reads slot previous) {other : Slot} {c : ConnectorId} :
    b'.Reads other c ↔ if other = slot then c = target else b.Reads other c := by
  obtain ⟨e, he, hexprs⟩ := hr.exprs
  have hindex : slot.index < e.inputConnectors.length := by
    obtain ⟨e', he', hc⟩ := hprevious
    obtain rfl := Option.some.inj (he.symm.trans he')
    exact (List.getElem?_eq_some_iff.mp hc).1
  obtain ⟨expr, index⟩ := slot
  obtain ⟨expr', index'⟩ := other
  unfold Reads
  rw [hexprs, OrderedMap.get?_insert]
  by_cases h : expr' = expr
  · subst h
    by_cases h' : index' = index
    · subst h'
      simp [Expression.inputConnectors_rewired, hindex, eq_comm]
    · simp [h', Ne.symm h', Expression.inputConnectors_rewired, he]
  · simp [h]

/-- A rewired expression is still the same in everything but what it reads. -/
theorem Rewired.before (hr : Rewired b slot previous target b') {id : ExprId} {e' : Expression}
    (he' : b'.exprs.get? id = some e') : ∃ e, b.exprs.get? id = some e ∧ e'.role = e.role ∧
      e'.outputConnectors = e.outputConnectors ∧
      ∀ provider, e.Installed id provider → e'.Installed id provider := by
  obtain ⟨e, he, hexprs⟩ := hr.exprs
  rw [hexprs, OrderedMap.get?_insert] at he'
  by_cases hid : id = slot.expr
  · rw [if_pos hid] at he'
    obtain rfl := Option.some.inj he'
    rw [hid]
    exact ⟨e, he, rfl, rfl, fun _ hi => ⟨hi.id, hi.side, hi.strategy, hi.loops⟩⟩
  · rw [if_neg hid] at he'
    exact ⟨e', he', rfl, rfl, fun _ hi => hi⟩

theorem Rewired.live_iff (hr : Rewired b slot previous target b') (id : ExprId) :
    (∃ e', b'.exprs.get? id = some e') ↔ ∃ e, b.exprs.get? id = some e := by
  constructor
  · intro hx
    obtain ⟨e', he'⟩ := hx
    exact (hr.before he').imp fun _ h => h.1
  · intro hx
    obtain ⟨e, he⟩ := hx
    obtain ⟨_, -, hexprs⟩ := hr.exprs
    rw [hexprs, OrderedMap.get?_insert]
    by_cases hid : id = slot.expr
    · exact ⟨_, if_pos hid⟩
    · exact ⟨e, by rw [if_neg hid, he]⟩

theorem Rewired.feeds_iff (hr : Rewired b slot previous target b') {other : Slot}
    {c : ConnectorId} : b'.Feeds other c ↔ b.Feeds other c := by
  constructor
  · intro hx
    obtain ⟨e', he', hc⟩ := hx
    obtain ⟨e, he, -, houtputs, -⟩ := hr.before he'
    exact ⟨e, he, by rwa [← houtputs]⟩
  · intro hx
    obtain ⟨e, he, hc⟩ := hx
    obtain ⟨e', he'⟩ := (hr.live_iff other.expr).mpr ⟨e, he⟩
    obtain ⟨e₀, he₀, -, houtputs, -⟩ := hr.before he'
    obtain rfl := Option.some.inj (he.symm.trans he₀)
    exact ⟨e', he', by rwa [houtputs]⟩

theorem Rewired.connector_iff (hr : Rewired b slot previous target b') {c : ConnectorId}
    {k' : Connector} :
    b'.connectors.get? c = some k' ↔
      ∃ k, b.connectors.get? c = some k ∧ relisted slot previous target c k = k' := by
  rw [hr.connectors, Option.map_eq_some_iff]

theorem Wired.rewired (h : Wired b) (hprevious : b.Reads slot previous)
    (hmay : b.MayRead slot.expr target) (hr : Rewired b slot previous target b') : Wired b' where
  nodup := by rw [hr.order]; exact h.nodup
  mem_order id := by rw [hr.order, hr.live_iff]; exact h.mem_order id
  reads_iff other c := by
    simp only [hr.reads_iff hprevious, hr.connector_iff, exists_exists_and_eq_and]
    obtain ⟨kt, hkt, -⟩ := hmay
    unfold relisted
    -- The target gains the operand, the previous connector loses it, and no other one is concerned.
    by_cases hc : c = target
    · subst hc
      by_cases hother : other = slot <;>
        simp [hother, hkt, h.reads_iff, Connector.reads_addReader]
    · by_cases hc' : c = previous
      · subst hc'
        by_cases hother : other = slot <;>
          simp [hother, hc, h.reads_iff, Connector.reads_dropReader]
      · -- The operand does not read this connector, since it reads the previous one.
        have hunread : ¬ b.Reads slot c := fun hreads => hc' (reads_unique hreads hprevious)
        by_cases hother : other = slot
        · subst hother
          rw [h.reads_iff] at hunread
          simpa [hc, hc'] using hunread
        · simp [hother, hc, hc', h.reads_iff]
  feeds_iff other c := by
    simp only [hr.feeds_iff, hr.connector_iff, h.feeds_iff, exists_exists_and_eq_and,
      source_relisted]
  ordered other c k' hreads hk' := by
    obtain ⟨k, hk, rfl⟩ := hr.connector_iff.mp hk'
    rw [hr.reads_iff hprevious] at hreads
    rw [source_relisted, RunsBefore, hr.order]
    by_cases hother : other = slot
    · -- The rewired operand was only admitted because the target is produced before it is read.
      rw [if_pos hother] at hreads
      subst hother hreads
      obtain ⟨kt, hkt, hruns⟩ := hmay
      rwa [Option.some.inj (hk.symm.trans hkt)]
    · rw [if_neg hother] at hreads
      exact h.ordered other c k hreads hk

theorem Rewired.nextOrdinal (hr : Rewired b slot previous target b') (side : Direction) :
    b'.nextOrdinal side = b.nextOrdinal side := by
  cases side with
  | input => exact hr.nextInput
  | output => exact hr.nextOutput

theorem Numbered.rewired (h : Numbered b) (hr : Rewired b slot previous target b') :
    Numbered b' where
  installed id e' he' := by
    obtain ⟨e, he, -, -, hinstalled⟩ := hr.before he'
    rw [hr.provider]
    exact hinstalled _ (h.installed id e he)
  expr_lt id e' he' := by
    obtain ⟨e, he, -⟩ := hr.before he'
    rw [hr.ids]
    exact h.expr_lt id e he
  connector_lt c k' hk' := by
    obtain ⟨k, hk, -⟩ := hr.connector_iff.mp hk'
    rw [hr.ids]
    exact h.connector_lt c k hk
  ordinal_lt id e' role he' hrole := by
    obtain ⟨e, he, hsame, -⟩ := hr.before he'
    rw [hr.nextOrdinal]
    exact h.ordinal_lt id e role he (hsame ▸ hrole)
  ordinal_mono id₁ e₁' role₁ id₂ e₂' role₂ he₁' hrole₁ he₂' hrole₂ := by
    obtain ⟨e₁, he₁, hsame₁, -⟩ := hr.before he₁'
    obtain ⟨e₂, he₂, hsame₂, -⟩ := hr.before he₂'
    exact h.ordinal_mono id₁ e₁ role₁ id₂ e₂ role₂ he₁ (hsame₁ ▸ hrole₁) he₂ (hsame₂ ▸ hrole₂)

theorem Coherent.rewired (h : Coherent b) (hprevious : b.Reads slot previous)
    (hmay : b.MayRead slot.expr target) (hr : Rewired b slot previous target b') : Coherent b' :=
  { h.toWired.rewired hprevious hmay hr, h.toNumbered.rewired hr with }

end Rewiring

/-! ## The edits, however they end -/

theorem Coherent.withIds (h : Coherent b) {ids : IdSupply} (hexpr : b.ids.nextExpr ≤ ids.nextExpr)
    (hconnector : b.ids.nextConnector ≤ ids.nextConnector) : Coherent { b with ids := ids } :=
  { h with
    expr_lt := fun id e he => Nat.lt_of_lt_of_le (h.expr_lt id e he) hexpr
    connector_lt := fun c k hk => Nat.lt_of_lt_of_le (h.connector_lt c k hk) hconnector }

theorem Coherent.insert (h : Coherent b) (position : Nat) (node : Node)
    (inputs : List ConnectorId) : Coherent (b.insert position node inputs).2 := by
  rcases insert_cases b position node inputs with
    ⟨err, -, heq⟩ | ⟨-, -, heq⟩ | ⟨hadm, harity, e, b', heq, hinserted⟩
  · rw [heq]
    exact h
  · rw [heq]
    exact h.withIds (Nat.le_succ _) (Nat.le_add_right _ _)
  · rw [heq]
    obtain ⟨hposition, hproduced⟩ := admits_eq_ok_iff.mp hadm
    exact h.inserted hposition hproduced harity hinserted

theorem Coherent.remove (h : Coherent b) (id : ExprId) : Coherent (b.remove id).2 := by
  rcases h.toWired.remove_cases id with ⟨err, -, heq⟩ | ⟨e, b', he, hunread, heq, hremoved⟩
  · rw [heq]
    exact h
  · rw [heq]
    exact h.removed he hunread hremoved

theorem Coherent.replaceInput (h : Coherent b) (port : Port) (target : ConnectorId) :
    Coherent (b.replaceInput port target).2 := by
  rcases h.toWired.replaceInput_cases port target with
    ⟨err, -, heq⟩ | ⟨-, heq⟩ | ⟨previous, b', -, hprevious, hmay, heq, hrewired⟩
  · rw [heq]
    exact h
  · rw [heq]
    exact h
  · rw [heq]
    exact h.rewired hprevious hmay hrewired

end TensorIR.Body
