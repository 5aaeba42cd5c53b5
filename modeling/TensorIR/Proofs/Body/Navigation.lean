import TensorIR.Proofs.Body.Ports
import TensorIR.Proofs.Body.Snapshots

/-!
# Following connectors there and back

From an operand one gets to the output that feeds it, and from an output to the operands that read
it. The one is looked up as the source of a connector, the other as its readers, and both are kept
apart from what the expressions say about their ports. In a sound body all of them give one
relation: two ports are linked if they have opposite directions and stand at the same connector.
`Wired.connected_exact` says that following a connector finds the linked ports, each of them once.
That one can always go back is then a matter of reading this relation from its other side.
-/

set_option autoImplicit false

namespace TensorIR

namespace Body

variable {b : Body} {p q : Port} {ports : List Port}

/-- The ports have opposite directions and stand at the same connector. -/
def Linked (b : Body) (p q : Port) : Prop :=
  q.direction ≠ p.direction ∧ ∃ c, b.connectorAt p = .ok c ∧ b.connectorAt q = .ok c

theorem Linked.symm (h : b.Linked p q) : b.Linked q p := by
  obtain ⟨hdirection, c, hp, hq⟩ := h
  exact ⟨hdirection.symm, c, hq, hp⟩

theorem Linked.hasPort (h : b.Linked p q) : b.HasPort q := by
  obtain ⟨-, c, -, hq⟩ := h
  exact exists_connectorAt_iff.mp ⟨c, hq⟩

theorem Linked.connectorAt_eq (h : b.Linked p q) : b.connectorAt q = b.connectorAt p := by
  obtain ⟨-, c, hp, hq⟩ := h
  rw [hp, hq]

/-- What stands at a port is live. -/
theorem Wired.live_of_connectorAt (h : Wired b) {c : ConnectorId} (hp : b.connectorAt p = .ok c) :
    ∃ k, b.connectors.get? c = some k := by
  cases hdirection : p.direction with
  | input =>
    rw [Port.eq_input_slot hdirection] at hp
    exact h.live_of_reads (connectorAt_input_iff.mp hp)
  | output =>
    rw [Port.eq_output_slot hdirection] at hp
    obtain ⟨k, hk, -⟩ := (h.feeds_iff _ c).mp (connectorAt_output_iff.mp hp)
    exact ⟨k, hk⟩

/-- The readers of a connector are the operands that stand at it. -/
theorem Wired.mem_readerPorts_iff (h : Wired b) {c : ConnectorId} {k : Connector}
    (hk : b.connectors.get? c = some k) :
    q ∈ k.readerPorts ↔ q.direction = .input ∧ b.connectorAt q = .ok c := by
  rw [Connector.mem_readerPorts_iff]
  refine and_congr_right fun hdirection => ?_
  rw [Port.eq_input_slot hdirection, connectorAt_input_iff]
  exact ⟨fun hlisted => (h.reads_iff q.slot c).mpr ⟨k, hk, hlisted⟩, h.reads hk⟩

/-- The source of a connector is the output that stands at it. -/
theorem Wired.eq_sourcePort_iff (h : Wired b) {c : ConnectorId} {k : Connector}
    (hk : b.connectors.get? c = some k) :
    q = k.sourcePort ↔ q.direction = .output ∧ b.connectorAt q = .ok c := by
  constructor
  · intro hq
    subst hq
    exact ⟨rfl, connectorAt_output_iff.mpr (h.feeds_source hk)⟩
  · intro hx
    obtain ⟨hdirection, hq⟩ := hx
    rw [Port.eq_output_slot hdirection] at hq ⊢
    rw [← h.source hk (connectorAt_output_iff.mp hq)]
    rfl

/-! ## What is found -/

/-- Following the connector at a port finds the ports that are linked to it, each of them once. -/
theorem Wired.connected_exact (h : Wired b) {c : ConnectorId} (hp : b.connectorAt p = .ok c) :
    ∃ ports, b.connected p = .ok ports ∧ ports.Nodup ∧ ∀ q, q ∈ ports ↔ b.Linked p q := by
  obtain ⟨k, hk⟩ := h.live_of_connectorAt hp
  have hlinked : ∀ q, b.Linked p q ↔ q.direction ≠ p.direction ∧ b.connectorAt q = .ok c := by
    intro q
    simp [Linked, hp]
  simp only [connected, hp, connector_eq_ok_iff.mpr hk, bind, Except.bind, hlinked]
  cases hdirection : p.direction with
  | input =>
    refine ⟨[k.sourcePort], rfl, List.nodup_singleton _, fun q => ?_⟩
    rw [List.mem_singleton, h.eq_sourcePort_iff hk]
    cases q.direction <;> simp
  | output =>
    refine ⟨k.readerPorts, rfl, (OrderedSet.nodup_toList _).map Slot.input_injective, fun q => ?_⟩
    rw [h.mem_readerPorts_iff hk]
    cases q.direction <;> simp

theorem connected_input (hdirection : p.direction = .input) (hp : b.connected p = .ok ports) :
    ∃ q, ports = [q] := by
  rw [connected, hdirection] at hp
  obtain ⟨c, -, hc⟩ := bind_eq_ok_iff.mp hp
  obtain ⟨k, -, hk⟩ := bind_eq_ok_iff.mp hc
  exact ⟨k.sourcePort, (Except.ok.inj hk).symm⟩

theorem HasPort.descriptor (h : b.HasPort p) : ∃ d, b.descriptor p = .ok d := by
  obtain ⟨e, he, hlt⟩ := h
  refine ⟨((e.ports p.direction)[p.index]).descriptor, ?_⟩
  simp [Body.descriptor, he, Expression.descriptor, Expression.wire, bind, Except.bind, Except.map,
    hlt]

/-- In every body that can come about, whatever is looked up from a port is there. Following its
connector finds ports of the other direction at the same connector, none of them twice, and exactly
one if the port is an operand. Of two ports, one is found from the other if the other is found from
it. -/
theorem navigation_symmetric (h : Reachable b) :
    (∀ p, b.HasPort p → ∃ e d c k ports, b.expr p.expr = .ok e ∧ b.descriptor p = .ok d ∧
      b.connectorAt p = .ok c ∧ b.connector c = .ok k ∧ b.connected p = .ok ports ∧
      ports.Nodup ∧ (p.direction = .input → ∃ q, ports = [q]) ∧
      ∀ q ∈ ports, q.direction ≠ p.direction ∧ b.HasPort q ∧ b.connectorAt q = .ok c) ∧
    ∀ p q, b.HasPort p → b.HasPort q → ∃ ps qs,
      b.connected p = .ok ps ∧ b.connected q = .ok qs ∧ (q ∈ ps ↔ p ∈ qs) := by
  have hw : Wired b := h.coherent.toWired
  constructor
  · intro p hp
    obtain ⟨e, he, -⟩ := id hp
    obtain ⟨d, hd⟩ := hp.descriptor
    obtain ⟨c, hc⟩ := exists_connectorAt_iff.mpr hp
    obtain ⟨k, hk⟩ := hw.live_of_connectorAt hc
    obtain ⟨ports, hports, hnodup, hmem⟩ := hw.connected_exact hc
    refine ⟨e, d, c, k, ports, he, hd, hc, connector_eq_ok_iff.mpr hk, hports, hnodup,
      fun hdirection => connected_input hdirection hports, ?_⟩
    intro q hq
    have hlinked : b.Linked p q := (hmem q).mp hq
    exact ⟨hlinked.1, hlinked.hasPort, hlinked.connectorAt_eq.trans hc⟩
  · intro p q hp hq
    obtain ⟨c, hc⟩ := exists_connectorAt_iff.mpr hp
    obtain ⟨d, hd⟩ := exists_connectorAt_iff.mpr hq
    obtain ⟨ps, hps, -, hmem⟩ := hw.connected_exact hc
    obtain ⟨qs, hqs, -, hmem'⟩ := hw.connected_exact hd
    refine ⟨ps, qs, hps, hqs, ?_⟩
    rw [hmem, hmem']
    exact ⟨Linked.symm, Linked.symm⟩

/-- The parameter leads to its three readers, and the second operand of the difference leads
back. -/
theorem navigation_symmetric_fanOut :
    Reachable fanOut ∧ fanOut.HasPort ⟨⟨0⟩, .output, 0⟩ ∧ fanOut.HasPort ⟨⟨2⟩, .input, 1⟩ ∧
      fanOut.connected ⟨⟨0⟩, .output, 0⟩ =
        .ok [⟨⟨2⟩, .input, 0⟩, ⟨⟨2⟩, .input, 1⟩, ⟨⟨3⟩, .input, 0⟩] ∧
      ∃ qs, fanOut.connected ⟨⟨2⟩, .input, 1⟩ = .ok qs ∧ ⟨⟨0⟩, .output, 0⟩ ∈ qs := by
  have hp : fanOut.HasPort ⟨⟨0⟩, .output, 0⟩ := ⟨_, rfl, by decide⟩
  have hq : fanOut.HasPort ⟨⟨2⟩, .input, 1⟩ := ⟨_, rfl, by decide⟩
  have hfound : fanOut.connected ⟨⟨0⟩, .output, 0⟩ =
      .ok [⟨⟨2⟩, .input, 0⟩, ⟨⟨2⟩, .input, 1⟩, ⟨⟨3⟩, .input, 0⟩] := rfl
  obtain ⟨ps, qs, hps, hqs, hback⟩ := (navigation_symmetric reachable_fanOut).2 _ _ hp hq
  obtain rfl := Except.ok.inj (hfound.symm.trans hps)
  exact ⟨reachable_fanOut, hp, hq, hfound, qs, hqs, hback.mp (by decide)⟩

end Body

end TensorIR
