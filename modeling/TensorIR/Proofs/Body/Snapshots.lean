import Mathlib.Data.Option.Basic
import TensorIR.Body.Dot
import TensorIR.Proofs.Body.Boundary
import TensorIR.Proofs.Body.Documents
import TensorIR.Proofs.Body.Reachable

/-!
# What a snapshot tells about a body

`SameData` says without snapshots what two bodies with the same snapshot have in common: the
schedule, the connectors, and under every number expressions with the same data. Of an expression
that is everything but its strategy, the shapes its node declares, and what the text of its
operation does not show.

A snapshot only lists what is scheduled. That it tells everything all the same holds because in a
coherent body nothing else is in the tables, and every expression knows its own number
(`Coherent.snapshot_eq_iff`). The text and the drawing of a body read nothing but this data, so they
are determined by the snapshot as well.
-/

set_option autoImplicit false

namespace TensorIR

/-! ## The data of an expression -/

/-- The same in everything that a snapshot tells. -/
structure Expression.SameData (e e' : Expression) : Prop where
  id : e.id = e'.id
  name : e.node.name = e'.node.name
  op : e.node.op.render = e'.node.op.render
  /-- Connectors, shapes, layouts, blocks and registers at the operands. -/
  inputs : e.inputs = e'.inputs
  outputs : e.outputs = e'.outputs
  loops : e.loops = e'.loops
  role : e.role = e'.role
  emitter : e.emitter = e'.emitter

theorem Emitter.name_injective : Function.Injective Emitter.name := by
  rintro ⟨name⟩ ⟨name'⟩ rfl
  rfl

namespace Expression

variable {e e' : Expression}

theorem snapshot_eq_iff : e.snapshot = e'.snapshot ↔ e.SameData e' := by
  simp only [snapshot, ExpressionSnapshot.mk.injEq]
  constructor
  · intro h
    obtain ⟨hid, hname, hop, hinputs, houtputs, hloops, hrole, hemitter⟩ := h
    exact ⟨hid, hname, hop, hinputs, houtputs, hloops, hrole,
      Option.map_injective Emitter.name_injective hemitter⟩
  · intro h
    exact ⟨h.id, h.name, h.op, h.inputs, h.outputs, h.loops, h.role, by rw [h.emitter]⟩

theorem SameData.descriptor (h : e.SameData e') (direction : Direction) (index : Nat) :
    e.descriptor direction index = e'.descriptor direction index := by
  cases direction with
  | input => simp only [Expression.descriptor, wire, ports, h.inputs]
  | output => simp only [Expression.descriptor, wire, ports, h.outputs]

theorem SameData.render (h : e.SameData e') : e.render = e'.render := by
  simp only [Expression.render, h.id, h.name, h.op, h.inputs, h.outputs, h.loops, h.role]

theorem SameData.nodeLine (h : e.SameData e') : Dot.nodeLine e = Dot.nodeLine e' := by
  simp only [Dot.nodeLine, Dot.label, h.id, h.name, h.op, h.loops, h.role]

end Expression

/-! ## The data of a body -/

theorem Slot.output_injective : Function.Injective Slot.output := by
  rintro ⟨expr, index⟩ ⟨expr', index'⟩ h
  simp only [Slot.output, Port.mk.injEq] at h
  rw [h.1, h.2.2]

theorem Slot.input_injective : Function.Injective Slot.input := by
  rintro ⟨expr, index⟩ ⟨expr', index'⟩ h
  simp only [Slot.input, Port.mk.injEq] at h
  rw [h.1, h.2.2]

theorem OrderedMap.ext {κ α : Type} [Ord κ] {m n : OrderedMap κ α} (h : m.entries = n.entries) :
    m = n := by
  cases m
  cases n
  obtain rfl := h
  rfl

theorem OrderedSet.toList_injective {κ : Type} [Ord κ] :
    Function.Injective (OrderedSet.toList : OrderedSet κ → List κ) := by
  intro s s' h
  have hkeys : Function.Injective (Prod.fst : κ × Unit → κ) := fun _ _ hkey => Prod.ext hkey rfl
  exact OrderedMap.ext (List.map_injective_iff.mpr hkeys h)

theorem Connector.snapshot_inj {id id' : ConnectorId} {c c' : Connector}
    (h : c.snapshot id = c'.snapshot id') : id = id' ∧ c = c' := by
  simp only [Connector.snapshot, ConnectorSnapshot.mk.injEq] at h
  obtain ⟨hid, hsource, hreaders⟩ := h
  have hreaders := List.map_injective_iff.mpr Slot.input_injective hreaders
  cases c
  cases c'
  rw [Connector.mk.injEq]
  exact ⟨hid, Slot.output_injective hsource, OrderedSet.toList_injective hreaders⟩

theorem map_eq_of_rel {α β : Type} {r : α → α → Prop} {f : α → β}
    (hf : ∀ x y, r x y → f x = f y) {a b : Option α} (h : Option.Rel r a b) :
    a.map f = b.map f := by
  cases h with
  | none => rfl
  | some hxy => exact congrArg some (hf _ _ hxy)

namespace Body

/-- The same schedule, the same connectors, and the same data under every number. -/
structure SameData (b b' : Body) : Prop where
  order : b.order = b'.order
  connectors : b.connectors = b'.connectors
  exprs : ∀ id, Option.Rel Expression.SameData (b.exprs.get? id) (b'.exprs.get? id)

variable {b b' : Body}

theorem Coherent.map_id_scheduled (h : Coherent b) :
    b.scheduled.map Expression.id = b.order.map some := by
  rw [scheduled, List.map_filterMap]
  apply List.filterMap_eq_map_iff_forall_eq_some.mpr
  intro id hid
  obtain ⟨e, he⟩ := (h.mem_order id).mp hid
  rw [he, Option.map_some, (h.installed id e he).id]

theorem connectors_eq_of_snapshot (h : b.snapshot = b'.snapshot) :
    b.connectors = b'.connectors := by
  have hentry : Function.Injective fun entry : ConnectorId × Connector =>
      entry.2.snapshot entry.1 := by
    intro entry entry' heq
    obtain ⟨hid, hc⟩ := Connector.snapshot_inj heq
    exact Prod.ext hid hc
  exact OrderedMap.ext (List.map_injective_iff.mpr hentry (congrArg Snapshot.connectors h))

theorem Coherent.order_eq_of_snapshot (h : Coherent b) (h' : Coherent b')
    (hs : b.snapshot = b'.snapshot) : b.order = b'.order := by
  have hids := congrArg (List.map ExpressionSnapshot.id) (congrArg Snapshot.expressions hs)
  have hid : ExpressionSnapshot.id ∘ Expression.snapshot = Expression.id := rfl
  simp only [snapshot, List.map_map, hid, h.map_id_scheduled, h'.map_id_scheduled] at hids
  exact List.map_injective_iff.mpr (Option.some_injective _) hids

/-- Whatever one body holds, the other holds with the same data. -/
theorem Coherent.found_of_snapshot (h : Coherent b) (h' : Coherent b')
    (hs : b.snapshot = b'.snapshot) {id : ExprId} {e : Expression}
    (he : b.exprs.get? id = some e) :
    ∃ e', b'.exprs.get? id = some e' ∧ e.SameData e' := by
  have hmem : e.snapshot ∈ b'.scheduled.map Expression.snapshot := by
    rw [← show b.scheduled.map Expression.snapshot = b'.scheduled.map Expression.snapshot from
      congrArg Snapshot.expressions hs]
    exact List.mem_map_of_mem (h.mem_scheduled_iff.mpr ⟨id, he⟩)
  obtain ⟨e', hscheduled, hsnapshot⟩ := List.mem_map.mp hmem
  obtain ⟨id', he'⟩ := h'.mem_scheduled_iff.mp hscheduled
  have hdata := Expression.snapshot_eq_iff.mp hsnapshot.symm
  obtain rfl : id = id' := by
    have hid := hdata.id
    rw [(h.installed id e he).id, (h'.installed id' e' he').id] at hid
    exact Option.some.inj hid
  exact ⟨e', he', hdata⟩

/-- What reads only the data of expressions reads the same along both schedules. -/
theorem SameData.map_scheduled {α : Type} {f : Expression → α}
    (hf : ∀ e e' : Expression, e.SameData e' → f e = f e') (h : b.SameData b') :
    b.scheduled.map f = b'.scheduled.map f := by
  have hexpr : ∀ id, (b.exprs.get? id).map f = (b'.exprs.get? id).map f :=
    fun id => map_eq_of_rel hf (h.exprs id)
  simp only [scheduled, List.map_filterMap, h.order, hexpr]

theorem SameData.snapshot (h : b.SameData b') : b.snapshot = b'.snapshot := by
  have hexpressions := h.map_scheduled fun e e' hdata => Expression.snapshot_eq_iff.mpr hdata
  rw [Body.snapshot, Body.snapshot, hexpressions, h.connectors]

theorem Coherent.snapshot_eq_iff (h : Coherent b) (h' : Coherent b') :
    b.snapshot = b'.snapshot ↔ b.SameData b' := by
  constructor
  · intro hs
    refine ⟨h.order_eq_of_snapshot h' hs, connectors_eq_of_snapshot hs, fun id => ?_⟩
    cases he : b.exprs.get? id with
    | some e =>
      obtain ⟨e', he', hdata⟩ := h.found_of_snapshot h' hs he
      rw [he']
      exact .some hdata
    | none =>
      cases he' : b'.exprs.get? id with
      | none => exact .none
      | some e' =>
        obtain ⟨e, hfound, -⟩ := h'.found_of_snapshot h hs.symm he'
        rw [he] at hfound
        cases hfound
  · intro hdata
    exact hdata.snapshot

/-! ## What the texts and the drawing are made of -/

theorem descriptor_eq (b : Body) (port : Port) :
    b.descriptor port =
      ((b.exprs.get? port.expr).map (·.descriptor port.direction port.index)).getD
        (.error (.unknownExpression port.expr)) := by
  unfold Body.descriptor Body.expr
  cases b.exprs.get? port.expr <;> rfl

theorem SameData.descriptor (h : b.SameData b') (port : Port) :
    b.descriptor port = b'.descriptor port := by
  have hdescriptor := map_eq_of_rel
    (fun e e' hdata => hdata.descriptor port.direction port.index) (h.exprs port.expr)
  rw [descriptor_eq, descriptor_eq, hdescriptor]

theorem SameData.render (h : b.SameData b') : b.render = b'.render := by
  have hline : ∀ e e' : Expression, e.SameData e' → e.render ++ "\n" = e'.render ++ "\n" := by
    intro e e' hdata
    rw [hdata.render]
  rw [Body.render, Body.render, h.map_scheduled hline]

theorem SameData.connectorLines (h : b.SameData b') (id : ConnectorId) (c : Connector) :
    Dot.connectorLines b id c = Dot.connectorLines b' id c := by
  rw [Dot.connectorLines, Dot.connectorLines, h.descriptor]

theorem SameData.dot (h : b.SameData b') : b.dot = b'.dot := by
  have hlines : Dot.connectorLines b = Dot.connectorLines b' :=
    funext fun id => funext (h.connectorLines id)
  have hnodes : b.scheduled.map Dot.nodeLine = b'.scheduled.map Dot.nodeLine :=
    h.map_scheduled fun e e' hdata => hdata.nodeLine
  unfold Body.dot
  rw [hnodes, hlines, h.connectors]

/-! ## All of it together -/

/-- For bodies that can come about, the documents in either layout, the bytes that are
fingerprinted and the snapshots are equal together, and they are exactly when the bodies have the
same data. The fingerprint is the digest of these bytes and of nothing else. Then fingerprints,
texts and drawings are equal too. -/
theorem documents_faithful (h : Reachable b) (h' : Reachable b') :
    (b.compactJson = b'.compactJson ↔ b.snapshot = b'.snapshot) ∧
    (b.prettyJson = b'.prettyJson ↔ b.snapshot = b'.snapshot) ∧
    (b.compactJson.toUTF8.toList = b'.compactJson.toUTF8.toList ↔ b.snapshot = b'.snapshot) ∧
    b.fingerprint = Sha256.hexDigest b.compactJson.toUTF8.toList ∧
    b'.fingerprint = Sha256.hexDigest b'.compactJson.toUTF8.toList ∧
    (b.snapshot = b'.snapshot ↔ b.SameData b') ∧
    (b.snapshot = b'.snapshot →
      b.fingerprint = b'.fingerprint ∧ b.render = b'.render ∧ b.dot = b'.dot) := by
  have hdata := h.coherent.snapshot_eq_iff h'.coherent
  refine ⟨compactJson_eq_iff, prettyJson_eq_iff, bytes_eq_iff, rfl, rfl, hdata, ?_⟩
  intro hs
  have hbytes := bytes_eq_iff.mpr hs
  refine ⟨?_, (hdata.mp hs).render, (hdata.mp hs).dot⟩
  rw [fingerprint, fingerprint, hbytes]

/-- The same graph scheduled in another loop is another document. -/
theorem documents_faithful_echo :
    Reachable echo ∧ Reachable (echo.after (.edit ⟨1⟩ (.loops [3]))) ∧
      echo.compactJson ≠ (echo.after (.edit ⟨1⟩ (.loops [3]))).compactJson := by
  have hlooped : Reachable (echo.after (.edit ⟨1⟩ (.loops [3]))) := reachable_echo.step _
  refine ⟨reachable_echo, hlooped, fun h => ?_⟩
  have hsnapshot := (documents_faithful reachable_echo hlooped).1.mp h
  exact absurd hsnapshot (by decide +kernel)

end Body

end TensorIR
