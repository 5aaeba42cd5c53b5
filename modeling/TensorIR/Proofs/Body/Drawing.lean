import TensorIR.Body.Dot
import TensorIR.Proofs.Body.Checking
import TensorIR.Proofs.Body.Ports
import TensorIR.Proofs.Text.Lines

/-!
# The drawing shows the data flow

The drawing is written from two tables: a node for each scheduled expression, and an edge for each
reader of each connector. What there is to draw is known from the expressions alone: an operand
reads a connector, the connector is fed by an output, and the output has a shape (`Flows`). In a
sound body the two are the same. Every operand is drawn by one edge, whether or not other operands
read the same connector, and no edge is drawn for anything else.

The statement is about the text. A reader of the drawing takes it line by line and tells from the
beginning of a line what it declares (`declared?`) or joins (`joined?`); a label cannot mislead it,
because a label has no line breaks left when it is written.
-/

set_option autoImplicit false

namespace TensorIR

theorem toString_text (text : String) : toString text = text := rfl

/-- A tensor on its way from an output to one of the operands that read it. -/
structure Flow where
  source : Slot
  connector : ConnectorId
  shape : Shape
  reader : Slot

namespace Flow

/-- What is written at an edge: the connector and the shape it carries, the number of the output at
the tail and that of the operand at the head. -/
def labels (f : Flow) : String :=
  s!"label=\"c{f.connector.index} {f.shape.render}\", taillabel=\"{f.source.index}\", " ++
    s!"headlabel=\"{f.reader.index}\"];"

/-- The line of an edge. -/
def text (f : Flow) : String :=
  s!"    e{f.source.expr.index} -> e{f.reader.expr.index} [" ++ f.labels

end Flow

namespace Dot

variable {id source reader : ExprId} {line : String} {rest : List Char} {e : Expression}

/-! ## Reading a line -/

/-- The number of an expression at the beginning of a text, and what follows it. -/
def readName? : List Char → Option (ExprId × List Char)
  | 'e' :: rest => (Numeral.readNat? (rest.takeWhile Char.isDigit)).map fun n =>
    (⟨n⟩, rest.dropWhile Char.isDigit)
  | _ => none

/-- The expression that a line names after its margin, and what follows. -/
def starting? (line : String) : Option (ExprId × List Char) :=
  (line.toList.dropPrefix? "    ".toList).bind readName?

/-- The expression that a line declares as a node, if it does so. -/
def declared? (line : String) : Option ExprId := do
  let (id, rest) ← starting? line
  let _ ← rest.dropPrefix? " [".toList
  return id

/-- The expressions that a line joins by an edge, if it does so. -/
def joined? (line : String) : Option (ExprId × ExprId) := do
  let (source, rest) ← starting? line
  let (reader, rest) ← (rest.dropPrefix? " -> ".toList).bind readName?
  let _ ← rest.dropPrefix? " [".toList
  return (source, reader)

theorem readName?_name (hrest : ∀ c ∈ rest.head?, c.isDigit = false) :
    readName? ('e' :: (Numeral.digits id.index ++ rest)) = some (id, rest) := by
  rw [readName?, Numeral.takeWhile_digits_append _ hrest, Numeral.dropWhile_digits_append _ hrest,
    Numeral.readNat?_digits]
  rfl

theorem starting?_eq (h : line.toList = "    e".toList ++ (Numeral.digits id.index ++ rest))
    (hrest : ∀ c ∈ rest.head?, c.isDigit = false) : starting? line = some (id, rest) := by
  have hmargin : line.toList.dropPrefix? "    ".toList =
      some ('e' :: (Numeral.digits id.index ++ rest)) := by
    rw [h]
    simp [List.dropPrefix?]
  rw [starting?, hmargin, Option.bind_some, readName?_name hrest]

/-- Nodes are declared, and do not join anything. -/
theorem reads_node (h : line.toList =
    "    e".toList ++ (Numeral.digits id.index ++ (" [".toList ++ rest))) :
    declared? line = some id ∧ joined? line = none := by
  have hstart : starting? line = some (id, " [".toList ++ rest) := starting?_eq h (by simp)
  constructor
  · simp [declared?, hstart, List.dropPrefix?]
  · simp [joined?, hstart, List.dropPrefix?]

/-- Edges join what they name, and do not declare anything. -/
theorem reads_edge (h : line.toList = "    e".toList ++ (Numeral.digits source.index ++
    (" -> e".toList ++ (Numeral.digits reader.index ++ (" [".toList ++ rest))))) :
    declared? line = none ∧ joined? line = some (source, reader) := by
  have hstart := starting?_eq h (by simp)
  have hreader : readName? ('e' :: (Numeral.digits reader.index ++ (" [".toList ++ rest))) =
      some (reader, " [".toList ++ rest) := readName?_name (by simp)
  constructor
  · simp [declared?, hstart, List.dropPrefix?]
  · simp at hreader
    simp [joined?, hstart, hreader, List.dropPrefix?]

/-! ## The line of a node -/

theorem unbroken_escapeLabel (label : String) : Unbroken (escapeLabel label) := by
  rw [Unbroken, escapeLabel, String.toList_ofList, List.mem_flatMap]
  intro hx
  obtain ⟨c, -, hc⟩ := hx
  by_cases hbreak : '\n' = c
  · subst hbreak
    simp [escape] at hc
  · unfold escape at hc
    split_ifs at hc <;> simp [hbreak] at hc

theorem unbroken_style (role : Option BoundaryRole) :
    Unbroken (style role).1 ∧ Unbroken (style role).2 := by
  rcases role with _ | ⟨_ | _, _⟩ <;> simp [style, Unbroken]

/-- The line of an expression, its line break left out. -/
def nodeText (id : ExprId) (e : Expression) : String :=
  let (outline, colour) := style e.role
  s!"    {id.render} [shape={outline}, style=filled, fillcolor={colour}, label=\"" ++
    escapeLabel (label e) ++ "\"];"

theorem nodeLine_eq (he : e.id = some id) : nodeLine e = nodeText id e ++ "\n" := by
  apply String.toList_injective
  simp [nodeLine, nodeText, he]

theorem unbroken_name (id : ExprId) : Unbroken id.render :=
  Unbroken.append (by decide) (unbroken_number id.index)

theorem unbroken_nodeText (id : ExprId) (e : Expression) : Unbroken (nodeText id e) := by
  obtain ⟨houtline, hcolour⟩ := unbroken_style e.role
  have hname := unbroken_name id
  have hlabel := unbroken_escapeLabel (label e)
  simp only [Unbroken, nodeText, toString_text, String.toList_append] at *
  simp [*]

theorem toList_nodeText (id : ExprId) (e : Expression) : (nodeText id e).toList =
    "    e".toList ++ (Numeral.digits id.index ++ (" [".toList ++
      ("shape=" ++ (style e.role).1 ++ ", style=filled, fillcolor=" ++ (style e.role).2 ++
        ", label=\"" ++ escapeLabel (label e) ++ "\"];").toList)) := by
  simp [nodeText, ExprId.render, toString_text, Numeral.digits]

theorem reads_nodeText (id : ExprId) (e : Expression) :
    declared? (nodeText id e) = some id ∧ joined? (nodeText id e) = none :=
  reads_node (toList_nodeText id e)

end Dot

/-! ## The line of an edge -/

theorem unbroken_shape (shape : Shape) : Unbroken shape.render := by
  have hdims : Unbroken (", ".intercalate (shape.dims.map Dim.render)) := by
    apply unbroken_intercalate (by decide)
    intro text htext
    obtain ⟨dim, -, rfl⟩ := List.mem_map.mp htext
    cases dim with
    | dynamic => decide
    | static size => exact unbroken_number size.val
  exact (Unbroken.append (by decide) hdims).append (by decide)

namespace Flow

variable {f g : Flow}

theorem toList_labels (f : Flow) : f.labels.toList = "label=\"c".toList ++
    (Numeral.digits f.connector.index ++ (" ".toList ++ (f.shape.render.toList ++
      ("\", taillabel=\"".toList ++ (Numeral.digits f.source.index ++ ("\", ".toList ++
        ("headlabel=\"".toList ++ (Numeral.digits f.reader.index ++ "\"];".toList)))))))) := by
  simp [labels, toString_text, Numeral.digits]

theorem toList_text (f : Flow) : f.text.toList = "    e".toList ++
    (Numeral.digits f.source.expr.index ++ (" -> e".toList ++
      (Numeral.digits f.reader.expr.index ++ (" [".toList ++ f.labels.toList)))) := by
  simp [text, toString_text, Numeral.digits]

theorem edgeLine_eq (f : Flow) :
    Dot.edgeLine f.connector f.source f.shape.render f.reader = f.text ++ "\n" := by
  apply String.toList_injective
  simp [text, labels, Dot.edgeLine, ExprId.render, ConnectorId.render, toString_text]

theorem unbroken_text (f : Flow) : Unbroken f.text := by
  have hshape := unbroken_shape f.shape
  have hnumber : ∀ n : Nat, '\n' ∉ Nat.toDigits 10 n := fun n => by
    simpa [Unbroken] using unbroken_number n
  simp only [Unbroken] at hshape
  simp [Unbroken, text, labels, toString_text, hshape, hnumber]

theorem labels_inj (hshape : f.connector = g.connector → f.shape = g.shape)
    (h : f.labels = g.labels) : f.connector = g.connector ∧
      f.source.index = g.source.index ∧ f.reader.index = g.reader.index := by
  have htext := congrArg String.toList h
  rw [toList_labels, toList_labels] at htext
  obtain ⟨hindex, hrest⟩ :=
    Numeral.digits_append_inj (by simp) (by simp) (List.append_cancel_left htext)
  have hconnector : f.connector = g.connector := congrArg ConnectorId.mk hindex
  rw [hshape hconnector] at hrest
  have hslots :=
    List.append_cancel_left (List.append_cancel_left (List.append_cancel_left hrest))
  obtain ⟨houtput, hoperands⟩ := Numeral.digits_append_inj (by simp) (by simp) hslots
  obtain ⟨hoperand, -⟩ := Numeral.digits_append_inj (by simp) (by simp)
    (List.append_cancel_left (List.append_cancel_left hoperands))
  exact ⟨hconnector, houtput, hoperand⟩

/-- A connector carries one shape, so the line of an edge tells everything about it. -/
theorem text_inj (hshape : f.connector = g.connector → f.shape = g.shape)
    (h : f.text = g.text) : f = g := by
  have htext := congrArg String.toList h
  rw [toList_text, toList_text] at htext
  obtain ⟨hfrom, hafter⟩ :=
    Numeral.digits_append_inj (by simp) (by simp) (List.append_cancel_left htext)
  obtain ⟨hto, hlabels⟩ :=
    Numeral.digits_append_inj (by simp) (by simp) (List.append_cancel_left hafter)
  obtain ⟨hconnector, houtput, hoperand⟩ :=
    labels_inj hshape (String.toList_injective (List.append_cancel_left hlabels))
  have hsource : f.source = g.source := by
    show Slot.mk ⟨f.source.expr.index⟩ f.source.index = g.source
    rw [hfrom, houtput]
  have hreader : f.reader = g.reader := by
    show Slot.mk ⟨f.reader.expr.index⟩ f.reader.index = g.reader
    rw [hto, hoperand]
  show Flow.mk f.source f.connector f.shape f.reader = g
  rw [hsource, hreader, hconnector, hshape hconnector]

end Flow

namespace Body

variable {b : Body} {f : Flow}

/-! ## What there is to draw -/

/-- The operand reads the connector, the output feeds it, and the shape is that of the output. -/
structure Flows (b : Body) (f : Flow) : Prop where
  reads : b.connectorAt f.reader.input = .ok f.connector
  source : ∃ k, b.connector f.connector = .ok k ∧ k.source = f.source
  shape : ∃ d, b.descriptor f.source.output = .ok d ∧ d.shape = f.shape

/-- The lines of the nodes, in execution order. -/
def nodeTexts (b : Body) : List String :=
  b.order.filterMap fun id => (b.exprs.get? id).map (Dot.nodeText id)

theorem exists_nodeText {text : String} (h : text ∈ b.nodeTexts) :
    ∃ id e, text = Dot.nodeText id e := by
  obtain ⟨id, -, hid⟩ := List.mem_filterMap.mp h
  obtain ⟨e, -, heq⟩ := Option.map_eq_some_iff.mp hid
  exact ⟨id, e, heq.symm⟩

/-- The edges of a connector, one for each reader. -/
def flowsOf (b : Body) (c : ConnectorId) (k : Connector) : List Flow :=
  match b.shapeAt k.sourcePort with
  | .ok shape => (OrderedSet.toList k.readers).map fun reader => ⟨k.source, c, shape, reader⟩
  | .error _ => []

/-- The edges of all connectors. -/
def flows (b : Body) : List Flow := b.connectors.entries.flatMap fun p => b.flowsOf p.1 p.2

theorem Flows.shapeAt (h : b.Flows f) : b.shapeAt f.source.output = .ok f.shape :=
  map_eq_ok_iff.mpr h.shape

/-- The edges of a connector start at the same output and carry the same shape. -/
theorem Flows.unique {g : Flow} (hf : b.Flows f) (hg : b.Flows g) (h : f.connector = g.connector) :
    f.source = g.source ∧ f.shape = g.shape := by
  obtain ⟨k, hk, hsource⟩ := hf.source
  obtain ⟨k', hk', hsource'⟩ := hg.source
  rw [← h] at hk'
  obtain rfl := Except.ok.inj (hk.symm.trans hk')
  have heq : f.source = g.source := hsource.symm.trans hsource'
  have hshape := hg.shapeAt
  rw [← heq, hf.shapeAt] at hshape
  exact ⟨heq, Except.ok.inj hshape⟩

theorem Wired.flowsOf_eq (h : Wired b) {c : ConnectorId} {k : Connector}
    (hk : b.connectors.get? c = some k) : ∃ shape, b.shapeAt k.sourcePort = .ok shape ∧
      b.flowsOf c k =
        (OrderedSet.toList k.readers).map fun reader => ⟨k.source, c, shape, reader⟩ := by
  obtain ⟨shape, hshape⟩ := h.exists_shapeAt_source hk
  exact ⟨shape, hshape, by rw [flowsOf, hshape]⟩

theorem Wired.mem_flows_iff (h : Wired b) : f ∈ b.flows ↔ b.Flows f := by
  rw [flows, List.mem_flatMap]
  constructor
  · intro hx
    obtain ⟨⟨c, k⟩, hp, hf⟩ := hx
    have hk := OrderedMap.get?_eq_some_iff.mpr hp
    obtain ⟨shape, hshape, heq⟩ := h.flowsOf_eq hk
    rw [heq, List.mem_map] at hf
    obtain ⟨reader, hreader, rfl⟩ := hf
    exact
      { reads := connectorAt_input_iff.mpr
          ((h.reads_iff reader c).mpr ⟨k, hk, Connector.mem_readers_iff.mp hreader⟩)
        source := ⟨k, connector_eq_ok_iff.mpr hk, rfl⟩
        shape := map_eq_ok_iff.mp hshape }
  · intro hf
    obtain ⟨k, hk, hsource⟩ := hf.source
    have hget := connector_eq_ok_iff.mp hk
    obtain ⟨shape, hshape, heq⟩ := h.flowsOf_eq hget
    have hsame := hf.shapeAt
    rw [← hsource] at hsame
    obtain rfl : shape = f.shape := Except.ok.inj (hshape.symm.trans hsame)
    refine ⟨(f.connector, k), OrderedMap.get?_eq_some_iff.mp hget, ?_⟩
    rw [heq, List.mem_map]
    refine ⟨f.reader, ?_, by rw [hsource]⟩
    exact Connector.mem_readers_iff.mpr (h.reads hget (connectorAt_input_iff.mp hf.reads))

/-- The edges end at the operands, one edge at each. -/
theorem Wired.readers_flows (h : Wired b) : (b.flows.map Flow.reader).Perm (b.slots .input) := by
  have hreaders : b.flows.map Flow.reader =
      b.connectors.entries.flatMap fun p => OrderedSet.toList p.2.readers := by
    rw [flows, List.map_flatMap]
    refine List.flatMap_congr fun p hp => ?_
    obtain ⟨shape, -, heq⟩ := h.flowsOf_eq (OrderedMap.get?_eq_some_iff.mpr hp)
    rw [heq, List.map_map]
    exact List.map_id _
  rw [hreaders]
  exact h.readers_perm

theorem Wired.nodup_texts (h : Wired b) : (b.flows.map Flow.text).Nodup := by
  have hflows : b.flows.Nodup := by
    apply List.Nodup.of_map Flow.reader
    exact h.readers_flows.nodup_iff.mpr (h.nodup_slots .input)
  refine hflows.map_on fun f hf g hg heq => Flow.text_inj (fun hconnector => ?_) heq
  exact ((h.mem_flows_iff.mp hf).unique (h.mem_flows_iff.mp hg) hconnector).2

/-! ## What is drawn -/

theorem Wired.connectorLines_eq (h : Wired b) {c : ConnectorId} {k : Connector}
    (hk : b.connectors.get? c = some k) :
    Dot.connectorLines b c k = String.join ((b.flowsOf c k).map fun f => f.text ++ "\n") := by
  obtain ⟨shape, hshape, heq⟩ := h.flowsOf_eq hk
  obtain ⟨d, hd, rfl⟩ := map_eq_ok_iff.mp hshape
  rw [Dot.connectorLines, hd, heq, List.map_map]
  refine congrArg String.join (List.map_congr_left fun reader _ => ?_)
  exact Flow.edgeLine_eq ⟨k.source, c, d.shape, reader⟩

theorem Coherent.nodeLines_eq (h : Coherent b) :
    b.scheduled.map Dot.nodeLine = b.nodeTexts.map (· ++ "\n") := by
  rw [scheduled, nodeTexts, List.map_filterMap, List.map_filterMap]
  refine List.filterMap_congr fun id _ => ?_
  cases he : b.exprs.get? id with
  | none => rfl
  | some e => exact congrArg some (Dot.nodeLine_eq (h.installed id e he).id)

theorem Wired.edgeLines_eq (h : Wired b) :
    String.join (b.connectors.entries.map fun (id, c) => Dot.connectorLines b id c) =
      String.join ((b.flows.map Flow.text).map (· ++ "\n")) := by
  rw [flows, List.map_map, List.map_flatMap]
  apply join_flatMap
  intro p hp
  exact h.connectorLines_eq (OrderedMap.get?_eq_some_iff.mpr hp)

/-- What stands before the nodes. -/
def opening : List String :=
  ["digraph lir \x7b", "    rankdir=TB;", "    node [fontname=\"Helvetica\", fontsize=10];",
    "    edge [fontname=\"Helvetica\", fontsize=9];", ""]

/-- The lines of the drawing: after the opening the nodes, after an empty line the edges. -/
theorem Coherent.lines_dot (h : Coherent b) : lines b.dot =
    opening ++ b.nodeTexts ++ [""] ++ b.flows.map Flow.text ++ ["\x7d"] ++ [""] := by
  have hopen : String.join (opening.map (· ++ "\n")) = "digraph lir \x7b\n" ++
      "    rankdir=TB;\n" ++ "    node [fontname=\"Helvetica\", fontsize=10];\n" ++
      "    edge [fontname=\"Helvetica\", fontsize=9];\n" ++ "\n" := by decide
  have hempty : String.join ([""].map (· ++ "\n")) = "\n" := by decide
  have hclose : String.join (["\x7d"].map (· ++ "\n")) = "\x7d\n" := by decide
  have hdot : b.dot = String.join ((opening ++ b.nodeTexts ++ [""] ++ b.flows.map Flow.text ++
      ["\x7d"]).map (· ++ "\n")) := by
    simp only [List.map_append, String.join_append, hopen, hempty, hclose]
    rw [← h.nodeLines_eq, ← h.toWired.edgeLines_eq]
    rfl
  rw [hdot]
  apply lines_join
  have hnodes : ∀ text ∈ b.nodeTexts, Unbroken text := by
    intro text htext
    obtain ⟨id, e, rfl⟩ := exists_nodeText htext
    exact Dot.unbroken_nodeText id e
  have hedges : ∀ text ∈ b.flows.map Flow.text, Unbroken text := by
    intro text htext
    obtain ⟨f, -, rfl⟩ := List.mem_map.mp htext
    exact f.unbroken_text
  have hopening : ∀ text ∈ opening, Unbroken text := by
    simp [opening, Unbroken]
  simp only [List.mem_append, or_imp, forall_and]
  exact ⟨⟨⟨⟨hopening, hnodes⟩, by decide⟩, hedges⟩, by decide⟩

/-! ## What the lines say -/

/-- The line is that of an edge. -/
def IsEdge (line : String) : Prop := (Dot.joined? line).isSome

instance : DecidablePred IsEdge := fun line =>
  inferInstanceAs (Decidable ((Dot.joined? line).isSome))

theorem Wired.declared_nodeTexts (h : Wired b) :
    b.nodeTexts.map Dot.declared? = b.order.map some := by
  rw [nodeTexts, List.map_filterMap, ← List.filterMap_eq_map]
  refine List.filterMap_congr fun id hid => ?_
  obtain ⟨e, he⟩ := (h.mem_order id).mp hid
  rw [he, Option.map_some, Option.map_some, (Dot.reads_nodeText id e).1]
  rfl

theorem joined_nodeTexts {text : String} (htext : text ∈ b.nodeTexts) :
    Dot.joined? text = none := by
  obtain ⟨id, e, rfl⟩ := exists_nodeText htext
  exact (Dot.reads_nodeText id e).2

theorem reads_text (f : Flow) :
    Dot.declared? f.text = none ∧ Dot.joined? f.text = some (f.source.expr, f.reader.expr) :=
  Dot.reads_edge f.toList_text

/-- The nodes that are declared are the scheduled expressions, in execution order. -/
theorem Coherent.declared_dot (h : Coherent b) :
    (lines b.dot).filterMap Dot.declared? = b.order := by
  have hopening : opening.filterMap Dot.declared? = [] := by decide
  have hnodes : b.nodeTexts.filterMap Dot.declared? = b.order := by
    have hmap : (b.nodeTexts.map Dot.declared?).filterMap id = b.order := by
      rw [h.toWired.declared_nodeTexts, List.filterMap_map]
      exact List.filterMap_some
    rwa [List.filterMap_map] at hmap
  have hedges : (b.flows.map Flow.text).filterMap Dot.declared? = [] := by
    rw [List.filterMap_eq_nil_iff]
    intro text htext
    obtain ⟨f, -, rfl⟩ := List.mem_map.mp htext
    exact (reads_text f).1
  rw [h.lines_dot]
  simp only [List.filterMap_append, hopening, hnodes, hedges]
  simp [Dot.declared?, Dot.starting?, List.dropPrefix?]

/-- The lines that are edges are those of the flows. -/
theorem Coherent.edges_dot (h : Coherent b) :
    (lines b.dot).filter IsEdge = b.flows.map Flow.text := by
  have hopening : opening.filter IsEdge = [] := by decide
  have hnodes : b.nodeTexts.filter IsEdge = [] := by
    rw [List.filter_eq_nil_iff]
    intro text htext
    simp [IsEdge, joined_nodeTexts htext]
  have hedges : (b.flows.map Flow.text).filter IsEdge = b.flows.map Flow.text := by
    rw [List.filter_eq_self]
    intro text htext
    obtain ⟨f, -, rfl⟩ := List.mem_map.mp htext
    simp [IsEdge, (reads_text f).2]
  rw [h.lines_dot]
  simp only [List.filter_append, hopening, hnodes, hedges]
  simp [IsEdge, Dot.joined?, Dot.starting?, List.dropPrefix?]

/-- An edge joins expressions that are scheduled. -/
theorem Flows.mem_order (h : b.Flows f) (hw : Wired b) :
    f.source.expr ∈ b.order ∧ f.reader.expr ∈ b.order := by
  obtain ⟨k, hk, hsource⟩ := h.source
  obtain ⟨e, he, -⟩ := hw.feeds_source (connector_eq_ok_iff.mp hk)
  obtain ⟨e', he', -⟩ := connectorAt_input_iff.mp h.reads
  rw [hsource] at he
  exact ⟨(hw.mem_order _).mpr ⟨e, he⟩, (hw.mem_order _).mpr ⟨e', he'⟩⟩

/-- The drawing of a body that can come about has a line for each live expression, in execution
order, and then one for each edge. The edges are the flows of tensors from outputs to operands:
there is one at every operand, with the connector, the shape and the numbers of both ports, and it
joins nodes that are declared. Nothing else in the drawing declares a node or joins any. -/
theorem dot_dataFlow (h : Reachable b) :
    ∃ (nodes : List String) (edges : List Flow),
      lines b.dot = opening ++ nodes ++ [""] ++ edges.map Flow.text ++ ["\x7d"] ++ [""] ∧
      nodes.map Dot.declared? = b.order.map some ∧
      (lines b.dot).filterMap Dot.declared? = b.order ∧ b.order.Nodup ∧
      (∀ id, id ∈ b.order ↔ ∃ e, b.expr id = .ok e) ∧
      (lines b.dot).filter IsEdge = edges.map Flow.text ∧ (∀ f, f ∈ edges ↔ b.Flows f) ∧
      (edges.map Flow.reader).Perm (b.slots .input) ∧
      edges.length = (b.scheduled.map fun e => e.inputs.length).sum ∧
      ∀ f ∈ edges, (lines b.dot).count f.text = 1 ∧
        Dot.joined? f.text = some (f.source.expr, f.reader.expr) ∧
        f.source.expr ∈ b.order ∧ f.reader.expr ∈ b.order := by
  have hc : Coherent b := h.coherent
  have hw : Wired b := hc.toWired
  refine ⟨b.nodeTexts, b.flows, hc.lines_dot, hw.declared_nodeTexts, hc.declared_dot, hw.nodup, ?_,
    hc.edges_dot, fun f => hw.mem_flows_iff, hw.readers_flows, ?_, ?_⟩
  · intro id
    rw [hw.mem_order]
    simp only [expr_eq_ok_iff]
  · have hlength := hw.readers_flows.length_eq
    rw [List.length_map, length_slots] at hlength
    exact hlength
  · intro f hf
    have hedge : IsEdge f.text := by simp [IsEdge, (reads_text f).2]
    have hcount : (lines b.dot).count f.text = 1 := by
      rw [← List.count_filter (p := fun line => IsEdge line) (decide_eq_true hedge), hc.edges_dot]
      exact List.count_eq_one_of_mem hw.nodup_texts (List.mem_map_of_mem hf)
    exact ⟨hcount, (reads_text f).2, (hw.mem_flows_iff.mp hf).mem_order hw⟩

/-- The second operand of the difference has an edge of its own, although the first one reads the
same connector. -/
theorem dot_dataFlow_fanOut :
    Reachable fanOut ∧ fanOut.order = [⟨0⟩, ⟨2⟩, ⟨3⟩] ∧
      (lines fanOut.dot).filterMap Dot.declared? = [⟨0⟩, ⟨2⟩, ⟨3⟩] ∧
      (lines fanOut.dot).count
        "    e0 -> e2 [label=\"c0 []\", taillabel=\"0\", headlabel=\"1\"];" = 1 := by
  obtain ⟨_, edges, -, -, hdeclared, -, -, -, hedges, -, -, hlines⟩ := dot_dataFlow reachable_fanOut
  have hflows : fanOut.Flows ⟨⟨⟨0⟩, 0⟩, ⟨0⟩, .scalar, ⟨⟨2⟩, 1⟩⟩ :=
    ⟨rfl, ⟨_, rfl, rfl⟩, ⟨_, rfl, rfl⟩⟩
  obtain ⟨hcount, -⟩ := hlines _ ((hedges _).mpr hflows)
  have htext : Flow.text ⟨⟨⟨0⟩, 0⟩, ⟨0⟩, .scalar, ⟨⟨2⟩, 1⟩⟩ =
      "    e0 -> e2 [label=\"c0 []\", taillabel=\"0\", headlabel=\"1\"];" := by decide
  rw [htext] at hcount
  exact ⟨reachable_fanOut, by decide, hdeclared, hcount⟩

end Body

end TensorIR
