import Mathlib.Algebra.Ring.Nat
import Mathlib.Data.List.Nodup
import TensorIR.Body.Navigation
import TensorIR.Proofs.Body.Rewiring
import TensorIR.Proofs.Except

/-!
# The ports of a body

A body has a port for every wire of a live expression (`HasPort`). What is attached there can be
looked up from the port, and the answer is the relation `Reads` for operands and `Feeds` for
outputs.

The same ports are found from the other end, in the table of connectors. `slots` lists the ports of
one direction as the expressions have them; in a sound body the readers of all connectors are the
operands, each of them once, and the sources are the outputs, each of them once.
-/

set_option autoImplicit false

namespace TensorIR

theorem Expression.connector_eq_ok_iff {e : Expression} {direction : Direction} {index : Nat}
    {c : ConnectorId} : e.connector direction index = .ok c ↔
      ((e.ports direction).map Wire.connector)[index]? = some c := by
  rw [connector, wire, List.getElem?_map]
  cases (e.ports direction)[index]? <;> simp [Except.map]

namespace Body

variable {b : Body} {slot : Slot} {c : ConnectorId}

/-! ## What is at a port -/

/-- The expression of the port is live and has a wire there. -/
def HasPort (b : Body) (port : Port) : Prop :=
  ∃ e, b.expr port.expr = .ok e ∧ port.index < (e.ports port.direction).length

theorem connectorAt_input_iff : b.connectorAt slot.input = .ok c ↔ b.Reads slot c :=
  reads_iff_connector

theorem connectorAt_output_iff : b.connectorAt slot.output = .ok c ↔ b.Feeds slot c := by
  simp only [connectorAt, Slot.output, bind_eq_ok_iff, expr_eq_ok_iff,
    Expression.connector_eq_ok_iff]
  rfl

/-- There is a connector at every port, and nowhere else. -/
theorem exists_connectorAt_iff {port : Port} :
    (∃ c, b.connectorAt port = .ok c) ↔ b.HasPort port := by
  simp only [connectorAt, HasPort, bind_eq_ok_iff, Expression.connector_eq_ok_iff]
  constructor
  · intro hx
    obtain ⟨c, e, he, hc⟩ := hx
    obtain ⟨hlt, -⟩ := List.getElem?_eq_some_iff.mp hc
    exact ⟨e, he, by simpa using hlt⟩
  · intro hx
    obtain ⟨e, he, hlt⟩ := hx
    exact ⟨_, e, he, List.getElem?_eq_getElem (by simpa using hlt)⟩

theorem feeds_unique {c' : ConnectorId} (h : b.Feeds slot c) (h' : b.Feeds slot c') : c = c' :=
  Except.ok.inj ((connectorAt_output_iff.mpr h).symm.trans (connectorAt_output_iff.mpr h'))

/-! ## The ports of one direction -/

/-- How many ports an expression has in one direction. -/
def portCount (b : Body) (direction : Direction) (id : ExprId) : Nat :=
  match b.exprs.get? id with
  | some e => (e.ports direction).length
  | none => 0

/-- The ports of one direction, expression by expression in execution order. -/
def slots (b : Body) (direction : Direction) : List Slot :=
  b.order.flatMap fun id => (List.range (b.portCount direction id)).map (Slot.mk id)

theorem lt_portCount_iff {direction : Direction} {id : ExprId} {index : Nat} :
    index < b.portCount direction id ↔ b.HasPort ⟨id, direction, index⟩ := by
  simp only [HasPort, expr_eq_ok_iff, portCount]
  cases b.exprs.get? id <;> simp

theorem Wired.mem_slots_iff (h : Wired b) {direction : Direction} :
    slot ∈ b.slots direction ↔ b.HasPort ⟨slot.expr, direction, slot.index⟩ := by
  rw [← lt_portCount_iff]
  obtain ⟨id, i⟩ := slot
  simp only [slots, List.mem_flatMap, List.mem_map, List.mem_range, Slot.mk.injEq]
  constructor
  · intro hx
    obtain ⟨_, -, _, hlt, rfl, rfl⟩ := hx
    exact hlt
  · intro hlt
    obtain ⟨e, he, -⟩ := lt_portCount_iff.mp hlt
    exact ⟨id, (h.mem_order id).mpr ⟨e, expr_eq_ok_iff.mp he⟩, i, hlt, rfl, rfl⟩

theorem Wired.mem_slots_input_iff (h : Wired b) :
    slot ∈ b.slots .input ↔ ∃ c, b.Reads slot c := by
  simp only [h.mem_slots_iff, ← exists_connectorAt_iff, ← connectorAt_input_iff]
  rfl

theorem Wired.mem_slots_output_iff (h : Wired b) :
    slot ∈ b.slots .output ↔ ∃ c, b.Feeds slot c := by
  simp only [h.mem_slots_iff, ← exists_connectorAt_iff, ← connectorAt_output_iff]
  rfl

theorem Wired.nodup_slots (h : Wired b) (direction : Direction) : (b.slots direction).Nodup := by
  refine List.nodup_flatMap.mpr
    ⟨fun id _ => ?_, h.nodup.imp fun {id id'} hne slot hslot hslot' => ?_⟩
  · exact List.nodup_range.map fun i j hij => congrArg Slot.index hij
  · obtain ⟨_, -, rfl⟩ := List.mem_map.mp hslot
    obtain ⟨_, -, heq⟩ := List.mem_map.mp hslot'
    exact hne (congrArg Slot.expr heq).symm

/-- The ports are counted by adding up what the scheduled expressions have. -/
theorem length_slots (b : Body) (direction : Direction) :
    (b.slots direction).length = (b.scheduled.map fun e => (e.ports direction).length).sum := by
  have hcount : ∀ ids : List ExprId, (ids.map (b.portCount direction)).sum =
      ((ids.filterMap b.exprs.get?).map fun e => (e.ports direction).length).sum := by
    intro ids
    induction ids with
    | nil => rfl
    | cons id ids ih =>
      rw [List.map_cons, List.sum_cons, ih, portCount]
      cases he : b.exprs.get? id <;> simp [he]
  rw [slots, List.length_flatMap, scheduled, ← hcount]
  simp

/-! ## The ports in the table of connectors -/

/-- Every operand is a reader of one connector, and is listed there once. -/
theorem Wired.readers_perm (h : Wired b) :
    (b.connectors.entries.flatMap fun p => OrderedSet.toList p.2.readers).Perm
      (b.slots .input) := by
  have hreads : ∀ slot c k, (c, k) ∈ b.connectors.entries →
      slot ∈ OrderedSet.toList k.readers → b.Reads slot c := fun slot c k hk hslot =>
    (h.reads_iff slot c).mpr
      ⟨k, OrderedMap.get?_eq_some_iff.mpr hk, Connector.mem_readers_iff.mp hslot⟩
  refine (List.perm_ext_iff_of_nodup ?_ (h.nodup_slots .input)).mpr fun slot => ?_
  · refine List.nodup_flatMap.mpr ⟨fun p _ => OrderedSet.nodup_toList _, ?_⟩
    refine b.connectors.pairwise_ne.imp_of_mem fun {p q} hp hq hne slot hslot hslot' => hne ?_
    exact reads_unique (hreads slot p.1 p.2 hp hslot) (hreads slot q.1 q.2 hq hslot')
  · rw [h.mem_slots_input_iff, List.mem_flatMap]
    constructor
    · intro hx
      obtain ⟨p, hp, hslot⟩ := hx
      exact ⟨p.1, hreads slot p.1 p.2 hp hslot⟩
    · intro hx
      obtain ⟨c, hc⟩ := hx
      obtain ⟨k, hk, hlisted⟩ := (h.reads_iff slot c).mp hc
      exact ⟨(c, k), OrderedMap.get?_eq_some_iff.mp hk, Connector.mem_readers_iff.mpr hlisted⟩

/-- Every output is the source of one connector. -/
theorem Wired.sources_perm (h : Wired b) :
    (b.connectors.entries.map fun p => p.2.source).Perm (b.slots .output) := by
  have hfeeds : ∀ c k, (c, k) ∈ b.connectors.entries → b.Feeds k.source c := fun c k hk =>
    h.feeds_source (OrderedMap.get?_eq_some_iff.mpr hk)
  refine (List.perm_ext_iff_of_nodup ?_ (h.nodup_slots .output)).mpr fun slot => ?_
  · refine List.pairwise_map.mpr
      (b.connectors.pairwise_ne.imp_of_mem fun {p q} hp hq hne heq => hne ?_)
    exact feeds_unique (hfeeds p.1 p.2 hp) (heq ▸ hfeeds q.1 q.2 hq)
  · rw [h.mem_slots_output_iff, List.mem_map]
    constructor
    · intro hx
      obtain ⟨p, hp, rfl⟩ := hx
      exact ⟨p.1, hfeeds p.1 p.2 hp⟩
    · intro hx
      obtain ⟨c, hc⟩ := hx
      obtain ⟨k, hk, hsource⟩ := (h.feeds_iff slot c).mp hc
      exact ⟨(c, k), OrderedMap.get?_eq_some_iff.mp hk, hsource⟩

/-- There are as many connectors as outputs of scheduled expressions. -/
theorem Wired.size_connectors (h : Wired b) :
    b.connectors.size = (b.scheduled.map fun e => e.outputs.length).sum := by
  have hlength := h.sources_perm.length_eq
  rw [List.length_map, length_slots] at hlength
  exact hlength

/-- A parameter that is read three times, twice by one expression. The second parameter, which was
read by that expression before, has been removed, and two outputs are not read at all. -/
def fanOut : Body :=
  ((difference.after (.replaceInput ⟨⟨2⟩, .input, 1⟩ ⟨0⟩)).after (.remove ⟨1⟩)).after
    (.push (.make "w" (.unary .relu)) [⟨0⟩])

theorem reachable_fanOut : Reachable fanOut := .step (.step (.step reachable_difference _) _) _

end Body

end TensorIR
