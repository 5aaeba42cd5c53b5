import TensorIR.Error

/-!
# Connectors

A connector carries one tensor from the output that produces it to the inputs that read it. Its
ends are slots: that the source is an output and every reader an input is part of the type, and the
operations that take a port check its direction once, when it comes in.
-/

set_option autoImplicit false

namespace TensorIR

/-- An edge from one output to any number of inputs. -/
structure Connector where
  /-- The output that produces the tensor. -/
  source : Slot
  /-- The inputs that read it. -/
  readers : OrderedSet Slot

namespace Connector

/-- The slot of a port that is an output. -/
def outputSlot (port : Port) : Except IrError Slot :=
  match port.direction with
  | .output => .ok port.slot
  | .input => .error (.invalidState (.sourceNotOutput port))

/-- The slot of a port that is an input. -/
def inputSlot (port : Port) : Except IrError Slot :=
  match port.direction with
  | .input => .ok port.slot
  | .output => .error (.invalidState (.readerNotInput port))

/-- A connector that nothing reads yet. -/
def fedBy (source : Slot) : Connector := ⟨source, OrderedMap.empty⟩

/-- A connector between ports. All ports are checked, the source first and then the readers in
their order. -/
def make (source : Port) (readers : OrderedSet Port) : Except IrError Connector := do
  let source ← outputSlot source
  let slots ← readers.toList.mapM inputSlot
  return ⟨source, OrderedSet.ofList slots⟩

/-- The source as a port. -/
def sourcePort (c : Connector) : Port := c.source.output

/-- The readers as ports, in order. -/
def readerPorts (c : Connector) : List Port := (OrderedSet.toList c.readers).map Slot.input

/-- Feed the connector from another output. -/
def withSource (c : Connector) (source : Port) : Except IrError Connector :=
  (outputSlot source).map fun slot => { c with source := slot }

/-- Whether a slot is among the readers. -/
def reads (c : Connector) (slot : Slot) : Bool := c.readers.contains slot

/-- Whether a port is among the readers. An output never is. -/
def isReader (c : Connector) (port : Port) : Bool :=
  port.direction = .input && c.reads port.slot

/-- The connector with one more reader. -/
def addReader (c : Connector) (slot : Slot) : Connector :=
  { c with readers := OrderedSet.add c.readers slot }

/-- The connector without a reader. -/
def dropReader (c : Connector) (slot : Slot) : Connector :=
  { c with readers := c.readers.erase slot }

/-- Let a port read the connector. The answer says whether it did not do so already. -/
def register (c : Connector) (port : Port) : Except IrError (Bool × Connector) :=
  (inputSlot port).map fun slot => (!c.reads slot, c.addReader slot)

/-- Let a port that reads the connector stop doing so. -/
def unregister (c : Connector) (port : Port) : Except IrError Connector :=
  if c.isReader port then .ok (c.dropReader port.slot)
  else .error (.invalidState (.notReader port c.sourcePort))

/-! ## What the operations do to the readers -/

@[simp] theorem source_addReader (c : Connector) (slot : Slot) :
    (c.addReader slot).source = c.source := rfl

@[simp] theorem source_dropReader (c : Connector) (slot : Slot) :
    (c.dropReader slot).source = c.source := rfl

@[simp] theorem source_fedBy (slot : Slot) : (fedBy slot).source = slot := rfl

theorem reads_addReader {c : Connector} {slot other : Slot} :
    (c.addReader slot).reads other = true ↔ other = slot ∨ c.reads other = true :=
  OrderedSet.contains_add

theorem reads_dropReader {c : Connector} {slot other : Slot} :
    (c.dropReader slot).reads other = true ↔ other ≠ slot ∧ c.reads other = true :=
  OrderedSet.contains_erase

@[simp] theorem reads_fedBy (source slot : Slot) : (fedBy source).reads slot = false := rfl

theorem mem_readers_iff {c : Connector} {slot : Slot} :
    slot ∈ OrderedSet.toList c.readers ↔ c.reads slot = true :=
  OrderedSet.mem_toList_iff

theorem mem_readerPorts_iff {c : Connector} {port : Port} :
    port ∈ c.readerPorts ↔ port.direction = .input ∧ c.reads port.slot = true := by
  obtain ⟨expr, direction, index⟩ := port
  simp only [readerPorts, List.mem_map, mem_readers_iff, Slot.input, Port.mk.injEq, Port.slot]
  constructor
  · rintro ⟨⟨_, _⟩, h, rfl, rfl, rfl⟩
    exact ⟨rfl, h⟩
  · rintro ⟨rfl, h⟩
    exact ⟨⟨expr, index⟩, h, rfl, rfl, rfl⟩

theorem mem_readerPorts_addReader {c : Connector} {port reader : Port}
    (hport : port.direction = .input) :
    reader ∈ (c.addReader port.slot).readerPorts ↔ reader = port ∨ reader ∈ c.readerPorts := by
  rw [mem_readerPorts_iff, mem_readerPorts_iff, reads_addReader]
  constructor
  · intro hx
    obtain ⟨hreader, hslot | hreads⟩ := hx
    · exact .inl (Port.eq_of_slot hreader hport hslot)
    · exact .inr ⟨hreader, hreads⟩
  · intro hx
    rcases hx with rfl | ⟨hreader, hreads⟩
    · exact ⟨hport, .inl rfl⟩
    · exact ⟨hreader, .inr hreads⟩

theorem mem_readerPorts_dropReader {c : Connector} {port reader : Port}
    (hport : port.direction = .input) :
    reader ∈ (c.dropReader port.slot).readerPorts ↔ reader ≠ port ∧ reader ∈ c.readerPorts := by
  rw [mem_readerPorts_iff, mem_readerPorts_iff, reads_dropReader]
  constructor
  · intro hx
    obtain ⟨hreader, hslot, hreads⟩ := hx
    exact ⟨fun h => hslot (congrArg Port.slot h), hreader, hreads⟩
  · intro hx
    obtain ⟨hne, hreader, hreads⟩ := hx
    exact ⟨hreader, fun hslot => hne (Port.eq_of_slot hreader hport hslot), hreads⟩

/-- Connectors are determined by their source and by who reads them. -/
theorem ext_reads {c d : Connector} (hsource : c.source = d.source)
    (hreads : ∀ slot, c.reads slot = true ↔ d.reads slot = true) : c = d := by
  have hreaders : c.readers = d.readers := OrderedSet.ext_contains hreads
  cases c
  cases d
  cases hsource
  cases hreaders
  rfl

theorem unregister_input (c : Connector) (slot : Slot) (h : c.reads slot = true) :
    c.unregister slot.input = .ok (c.dropReader slot) := by
  have : c.isReader slot.input = true := by simpa [isReader, Slot.input, Port.slot] using h
  rw [unregister, if_pos this]
  rfl

end Connector

end TensorIR
