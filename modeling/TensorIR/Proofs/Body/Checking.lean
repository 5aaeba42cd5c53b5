import TensorIR.Body.Check
import TensorIR.Proofs.Body.Wiring
import TensorIR.Proofs.Expression.Shapes

/-!
# What the checks find

What the structural check finds is said for any body, coherent or not: it succeeds when the
scheduled expressions and the connectors agree about who reads what (`validate_eq_ok_iff`), so it
never fails on a coherent body (`Coherent.validate`). Whether the check of shapes fails is a
question of the descriptors alone: it succeeds when each operand is described with the shape that
the source of its connector is described with (`Wired.checkShapes_iff`).
-/

set_option autoImplicit false

namespace TensorIR.Body

variable {b : Body}

/-! ## The structural check -/

theorem checkReads_eq_ok_iff {id : ExprId} {pairs : List (ConnectorId × Nat)} :
    b.checkReads id pairs = .ok () ↔
      ∀ p ∈ pairs, ∃ k, b.connectors.get? p.1 = some k ∧ k.reads ⟨id, p.2⟩ = true := by
  induction pairs with
  | nil => simp [checkReads]
  | cons p pairs ih =>
    obtain ⟨c, i⟩ := p
    rw [List.forall_mem_cons, ← ih, checkReads]
    cases hk : b.connector c with
    | error err => simp [bind, Except.bind, get?_of_connector_error hk]
    | ok k =>
      have hget := connector_eq_ok_iff.mp hk
      by_cases hreads : k.reads ⟨id, i⟩ = true <;> simp [bind, Except.bind, hget, hreads]

theorem checkSources_eq_ok_iff {id : ExprId} {pairs : List (ConnectorId × Nat)} :
    b.checkSources id pairs = .ok () ↔
      ∀ p ∈ pairs, ∃ k, b.connectors.get? p.1 = some k ∧ k.source = ⟨id, p.2⟩ := by
  induction pairs with
  | nil => simp [checkSources]
  | cons p pairs ih =>
    obtain ⟨c, j⟩ := p
    rw [List.forall_mem_cons, ← ih, checkSources]
    cases hk : b.connector c with
    | error err => simp [bind, Except.bind, get?_of_connector_error hk]
    | ok k =>
      have hget := connector_eq_ok_iff.mp hk
      by_cases hsource : k.source = ⟨id, j⟩ <;> simp [bind, Except.bind, hget, hsource]

/-- What the check asks of an expression: no loop is listed twice, its operands are listed by what
they read, and it is the source of what its outputs feed. -/
structure Checked (b : Body) (id : ExprId) (e : Expression) : Prop where
  loops : e.loops.Nodup
  reads : ∀ i c, e.inputConnectors[i]? = some c →
    ∃ k, b.connectors.get? c = some k ∧ k.reads ⟨id, i⟩ = true
  feeds : ∀ j c, e.outputConnectors[j]? = some c →
    ∃ k, b.connectors.get? c = some k ∧ k.source = ⟨id, j⟩

theorem checked_iff {id : ExprId} {e : Expression} :
    b.Checked id e ↔ e.validate = .ok () ∧
      b.checkReads id e.inputConnectors.zipIdx = .ok () ∧
      b.checkSources id e.outputConnectors.zipIdx = .ok () := by
  rw [Expression.validate_eq_ok_iff, checkReads_eq_ok_iff, checkSources_eq_ok_iff]
  simp only [Prod.forall, List.mem_zipIdx_iff_getElem?]
  constructor
  · intro h
    exact ⟨h.loops, fun c i => h.reads i c, fun c j => h.feeds j c⟩
  · intro hx
    obtain ⟨hloops, hreads, hfeeds⟩ := hx
    exact ⟨hloops, fun i c => hreads c i, fun j c => hfeeds c j⟩

theorem checkScheduled_eq_ok_iff {ids : List ExprId} :
    b.checkScheduled ids = .ok () ↔
      ∀ id ∈ ids, ∃ e, b.exprs.get? id = some e ∧ b.Checked id e := by
  induction ids with
  | nil => simp [checkScheduled]
  | cons id ids ih =>
    rw [List.forall_mem_cons, ← ih, checkScheduled]
    cases he : b.expr id with
    | error err => simp [bind, Except.bind, get?_of_expr_error he]
    | ok e =>
      simp only [expr_eq_ok_iff.mp he, Option.some.injEq, exists_eq_left', checked_iff]
      simp only [bind, Except.bind]
      cases e.validate with
      | error err => simp
      | ok =>
        cases b.checkReads id e.inputConnectors.zipIdx with
        | error err => simp
        | ok => cases b.checkSources id e.outputConnectors.zipIdx <;> simp

theorem readBy?_eq_some_iff {slot : Slot} {c : ConnectorId} :
    b.readBy? slot = some c ↔ b.Reads slot c := by
  rw [← reads_iff_connector]
  show (b.expr slot.expr >>= (·.connector .input slot.index)).toOption = some c ↔ _
  cases b.expr slot.expr >>= (·.connector .input slot.index) <;> simp [Except.toOption]

theorem checkReaders_eq_ok_iff {c : ConnectorId} {slots : List Slot} :
    b.checkReaders c slots = .ok () ↔ ∀ slot ∈ slots, b.Reads slot c := by
  induction slots with
  | nil => simp [checkReaders]
  | cons slot slots ih =>
    rw [List.forall_mem_cons, ← ih, checkReaders, ← readBy?_eq_some_iff]
    by_cases hreads : b.readBy? slot = some c <;> simp [hreads]

theorem checkConnectors_eq_ok_iff {entries : List (ConnectorId × Connector)} :
    b.checkConnectors entries = .ok () ↔
      ∀ p ∈ entries, ∀ slot, p.2.reads slot = true → b.Reads slot p.1 := by
  induction entries with
  | nil => simp [checkConnectors]
  | cons p entries ih =>
    obtain ⟨c, k⟩ := p
    rw [List.forall_mem_cons, ← ih, checkConnectors]
    have hreaders : b.checkReaders c (OrderedSet.toList k.readers) = .ok () ↔
        ∀ slot, k.reads slot = true → b.Reads slot c := by
      simp only [checkReaders_eq_ok_iff, Connector.mem_readers_iff]
    rw [← hreaders]
    cases b.checkReaders c (OrderedSet.toList k.readers) <;> simp [bind, Except.bind]

/-- The check says nothing about a body but this: the scheduled expressions are live and connected
as they should be, and no connector lists anyone who does not read it. -/
theorem validate_eq_ok_iff :
    b.validate = .ok () ↔
      (∀ id ∈ b.order, ∃ e, b.exprs.get? id = some e ∧ b.Checked id e) ∧
        ∀ c k, b.connectors.get? c = some k → ∀ slot, k.reads slot = true → b.Reads slot c := by
  have hconnectors : b.checkConnectors b.connectors.entries = .ok () ↔
      ∀ c k, b.connectors.get? c = some k → ∀ slot, k.reads slot = true → b.Reads slot c := by
    simp only [checkConnectors_eq_ok_iff, OrderedMap.get?_eq_some_iff, Prod.forall]
  rw [← hconnectors, ← checkScheduled_eq_ok_iff, Body.validate]
  cases b.checkScheduled b.order <;> simp [bind, Except.bind]

/-- Nothing is wrong with the structure of a coherent body. -/
theorem Coherent.validate (h : Coherent b) : b.validate = .ok () := by
  refine validate_eq_ok_iff.mpr ⟨fun id hid => ?_, fun c k hk slot hreads => ?_⟩
  · obtain ⟨e, he⟩ := (h.mem_order id).mp hid
    exact ⟨e, he,
      { loops := (h.installed id e he).loops
        reads := fun i c hc => (h.reads_iff ⟨id, i⟩ c).mp ⟨e, he, hc⟩
        feeds := fun j c hc => (h.feeds_iff ⟨id, j⟩ c).mp ⟨e, he, hc⟩ }⟩
  · exact (h.reads_iff slot c).mpr ⟨k, hk, hreads⟩

/-! ## Shapes at ports -/

/-- The shape that a port is described with. -/
def shapeAt (b : Body) (port : Port) : Except IrError Shape :=
  (b.descriptor port).map Descriptor.shape

theorem shapeAt_congr {b' : Body} {port : Port}
    (h : b'.exprs.get? port.expr = b.exprs.get? port.expr) : b'.shapeAt port = b.shapeAt port := by
  simp only [shapeAt, descriptor, expr, h]

theorem shapeAt_input_iff {id : ExprId} {e : Expression} (he : b.exprs.get? id = some e) {i : Nat}
    {shape : Shape} : b.shapeAt ⟨id, .input, i⟩ = .ok shape ↔ e.inputShapes[i]? = some shape := by
  rw [shapeAt, descriptor, expr_eq_ok_iff.mpr he, Expression.inputShapes, List.getElem?_map]
  simp only [bind, Except.bind, Expression.descriptor, Expression.wire, Expression.ports]
  cases e.inputs[i]? <;> simp [Except.map]

theorem shapeAt_output_iff {id : ExprId} {e : Expression} (he : b.exprs.get? id = some e) {j : Nat}
    {shape : Shape} : b.shapeAt ⟨id, .output, j⟩ = .ok shape ↔ e.outputShapes[j]? = some shape := by
  rw [shapeAt, descriptor, expr_eq_ok_iff.mpr he, Expression.outputShapes, List.getElem?_map]
  simp only [bind, Except.bind, Expression.descriptor, Expression.wire, Expression.ports]
  cases e.outputs[j]? <;> simp [Except.map]

/-- Expressions with the same shapes have the same shape at every port, also where there is none. -/
theorem shapeAt_eq_of_shapes {b' : Body} {id id' : ExprId} {e e' : Expression}
    (he : b.exprs.get? id = some e) (he' : b'.exprs.get? id' = some e')
    (hinputs : e.inputShapes = e'.inputShapes) (houtputs : e.outputShapes = e'.outputShapes)
    (direction : Direction) (index : Nat) :
    b.shapeAt ⟨id, direction, index⟩ = b'.shapeAt ⟨id', direction, index⟩ := by
  have hports : (e.ports direction).map (fun w => w.descriptor.shape) =
      (e'.ports direction).map (fun w => w.descriptor.shape) := by
    cases direction with
    | input => exact hinputs
    | output => exact houtputs
  have hlength := congrArg List.length hports
  have hat := congrArg (·[index]?) hports
  simp only [List.length_map, List.getElem?_map] at hlength hat
  rw [shapeAt, shapeAt, descriptor, descriptor, expr_eq_ok_iff.mpr he, expr_eq_ok_iff.mpr he']
  simp only [bind, Except.bind, Expression.descriptor, Expression.wire, hlength]
  revert hat
  cases (e.ports direction)[index]? <;> cases (e'.ports direction)[index]? <;>
    simp [Except.map]

theorem carriedShape_eq {c : ConnectorId} {k : Connector} (hk : b.connectors.get? c = some k) :
    b.carriedShape c = b.shapeAt k.sourcePort := by
  rw [carriedShape, connector_eq_ok_iff.mpr hk, shapeAt]
  rfl

theorem Wired.exists_shapeAt_source (h : Wired b) {c : ConnectorId} {k : Connector}
    (hk : b.connectors.get? c = some k) : ∃ shape, b.shapeAt k.sourcePort = .ok shape := by
  obtain ⟨e, he, hc⟩ := h.feeds_source hk
  rw [Expression.outputConnectors, List.getElem?_map, Option.map_eq_some_iff] at hc
  obtain ⟨w, hw, -⟩ := hc
  refine ⟨w.descriptor.shape, (shapeAt_output_iff he).mpr ?_⟩
  rw [Expression.outputShapes, List.getElem?_map, hw]
  rfl

/-- Whatever is read carries a shape. -/
theorem Wired.exists_carriedShape (h : Wired b) {slot : Slot} {c : ConnectorId}
    (hreads : b.Reads slot c) : ∃ shape, b.carriedShape c = .ok shape := by
  obtain ⟨k, hk⟩ := h.live_of_reads hreads
  rw [carriedShape_eq hk]
  exact h.exists_shapeAt_source hk

/-- The bodies have the same shapes at all ports. -/
def SameShapes (b b' : Body) : Prop := ∀ port, b'.shapeAt port = b.shapeAt port

namespace SameShapes

variable {b' b'' : Body}

theorem refl (b : Body) : SameShapes b b := fun _ => rfl

theorem symm (h : SameShapes b b') : SameShapes b' b := fun port => (h port).symm

theorem trans (h : SameShapes b b') (h' : SameShapes b' b'') : SameShapes b b'' :=
  fun port => (h' port).trans (h port)

variable {id : ExprId} {e e' : Expression} (h : SameShapes b b')
  (he : b.exprs.get? id = some e) (he' : b'.exprs.get? id = some e')
include h he he'

theorem inputShapes : e'.inputShapes = e.inputShapes := by
  refine List.ext_getElem? fun i => Option.ext fun shape => ?_
  rw [← shapeAt_input_iff he, ← shapeAt_input_iff he', h]

theorem outputShapes : e'.outputShapes = e.outputShapes := by
  refine List.ext_getElem? fun j => Option.ext fun shape => ?_
  rw [← shapeAt_output_iff he, ← shapeAt_output_iff he', h]

end SameShapes

theorem SameShapes.carriedShape {b' : Body} (h : SameShapes b b')
    (hconnectors : b'.connectors = b.connectors) (c : ConnectorId) :
    b'.carriedShape c = b.carriedShape c := by
  cases hk : b.connectors.get? c with
  | none => rw [Body.carriedShape, Body.carriedShape, connector, connector, hconnectors, hk]; rfl
  | some k => rw [carriedShape_eq hk, carriedShape_eq (hconnectors ▸ hk), h]

/-- The operands are described with the shapes that reach them. -/
def Fed (b : Body) (e : Expression) : Prop :=
  ∀ w ∈ e.inputs, b.carriedShape w.connector = .ok w.descriptor.shape

theorem fed_iff {e : Expression} :
    b.Fed e ↔ e.inputConnectors.map b.carriedShape = e.inputShapes.map .ok := by
  simp only [Fed, Expression.inputConnectors, Expression.inputShapes, List.map_map]
  exact List.map_inj_left.symm

/-! ## The check of shapes -/

theorem checkSeen_eq_ok_iff (c : ConnectorId) (source : Port) {produced : Shape}
    {readers : List Port} : b.checkSeen c source produced readers = .ok () ↔
      ∀ reader ∈ readers, b.shapeAt reader = .ok produced := by
  induction readers with
  | nil => simp [checkSeen]
  | cons reader readers ih =>
    rw [List.forall_mem_cons, ← ih, checkSeen, shapeAt]
    cases b.descriptor reader with
    | error err => simp [bind, Except.bind, Except.map]
    | ok d => by_cases h : d.shape = produced <;> simp [bind, Except.bind, Except.map, h]

theorem checkCarried_eq_ok_iff {entries : List (ConnectorId × Connector)} :
    b.checkCarried entries = .ok () ↔ ∀ p ∈ entries, ∃ produced,
      b.shapeAt p.2.sourcePort = .ok produced ∧
        ∀ reader ∈ p.2.readerPorts, b.shapeAt reader = .ok produced := by
  induction entries with
  | nil => simp [checkCarried]
  | cons p entries ih =>
    obtain ⟨c, k⟩ := p
    rw [List.forall_mem_cons, ← ih, checkCarried, shapeAt]
    cases b.descriptor k.sourcePort with
    | error err => simp [bind, Except.bind, Except.map]
    | ok d =>
      simp only [bind, Except.bind, Except.map, Except.ok.injEq, exists_eq_left',
        ← checkSeen_eq_ok_iff c k.sourcePort]
      cases b.checkSeen c k.sourcePort d.shape k.readerPorts <;> simp

/-- The check of shapes succeeds exactly when all operands are described with the shapes that reach
them. -/
theorem Wired.checkShapes_iff (h : Wired b) :
    b.checkShapes = .ok () ↔ ∀ id e, b.exprs.get? id = some e → b.Fed e := by
  rw [checkShapes, checkCarried_eq_ok_iff]
  constructor
  · intro hall id e he w hw
    obtain ⟨i, hi⟩ := List.mem_iff_getElem?.mp hw
    have hreads : b.Reads ⟨id, i⟩ w.connector :=
      ⟨e, he, by rw [Expression.inputConnectors, List.getElem?_map, hi]; rfl⟩
    obtain ⟨k, hk, hlisted⟩ := (h.reads_iff _ _).mp hreads
    obtain ⟨produced, hproduced, hseen⟩ := hall _ (OrderedMap.get?_eq_some_iff.mp hk)
    have hinput := hseen ⟨id, .input, i⟩ (Connector.mem_readerPorts_iff.mpr ⟨rfl, hlisted⟩)
    rw [shapeAt_input_iff he, Expression.inputShapes, List.getElem?_map, hi] at hinput
    rw [carriedShape_eq hk, hproduced, ← Option.some.inj hinput]
  · rintro hfed ⟨c, k⟩ hp
    have hk : b.connectors.get? c = some k := OrderedMap.get?_eq_some_iff.mpr hp
    obtain ⟨produced, hproduced⟩ := h.exists_shapeAt_source hk
    refine ⟨produced, hproduced, fun reader hreader => ?_⟩
    obtain ⟨hdirection, hlisted⟩ := Connector.mem_readerPorts_iff.mp hreader
    obtain ⟨e, he, hc⟩ := (h.reads_iff reader.slot c).mpr ⟨k, hk, hlisted⟩
    rw [Expression.inputConnectors, List.getElem?_map, Option.map_eq_some_iff] at hc
    obtain ⟨w, hw, rfl⟩ := hc
    have hseen : b.shapeAt ⟨reader.slot.expr, .input, reader.slot.index⟩ =
        .ok w.descriptor.shape := by
      rw [shapeAt_input_iff he, Expression.inputShapes, List.getElem?_map, hw]
      rfl
    have hcarried := hfed _ e he w (List.mem_of_getElem? hw)
    rw [carriedShape_eq hk, hproduced] at hcarried
    rw [← hdirection] at hseen
    rwa [hcarried]

end TensorIR.Body
