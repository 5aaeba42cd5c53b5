import TensorIR.Body.Shapes

/-!
# Drawing a body

A body is drawn as a directed graph in the DOT language: a node per expression in execution order
and an edge from a source to each of its readers, labelled with the connector and the shape it
carries. Parameters and results have shapes and a colour of their own.

Labels are quoted, and quoting is reversible: `unescape` reads back what `escape` wrote.
-/

set_option autoImplicit false

namespace TensorIR

namespace Dot

/-- How one character is written in a quoted label. -/
def escape (c : Char) : List Char :=
  if c = '"' then ['\\', '"']
  else if c = '\\' then ['\\', '\\']
  else if c = '\n' then ['\\', 'n']
  else [c]

/-- A label as it stands between the quotes. -/
def escapeLabel (label : String) : String := String.ofList (label.toList.flatMap escape)

/-- The characters that a quoted label stands for, if it is one: no quote or line break stands by
itself, and every backslash starts one of the three escapes. -/
def unescape : List Char → Option (List Char)
  | [] => some []
  | '\\' :: '"' :: rest => (unescape rest).map ('"' :: ·)
  | '\\' :: '\\' :: rest => (unescape rest).map ('\\' :: ·)
  | '\\' :: 'n' :: rest => (unescape rest).map ('\n' :: ·)
  | c :: rest =>
    if c = '\\' ∨ c = '"' ∨ c = '\n' then none else (unescape rest).map (c :: ·)

/-- The outline and the colour of an expression. -/
def style : Option BoundaryRole → String × String
  | some ⟨.input, _⟩ => ("invhouse", "lightsalmon")
  | some ⟨.output, _⟩ => ("house", "lightsalmon")
  | none => ("box", "lightblue")

/-- What is written into an expression's outline. -/
def label (e : Expression) : String :=
  let loops := if e.loops.isEmpty then "" else
    s!"\nloops {Descriptor.renderNumbers e.loops}"
  s!"{e.node.name}\n{e.node.op.render}" ++ loops

/-- The line of an expression, if it has a number. -/
def nodeLine (e : Expression) : String :=
  match e.id with
  | none => ""
  | some id =>
    let (outline, colour) := style e.role
    s!"    {id.render} [shape={outline}, style=filled, fillcolor={colour}, label=\"" ++
      escapeLabel (label e) ++ "\"];\n"

/-- The line of one reader of a connector. -/
def edgeLine (id : ConnectorId) (source : Slot) (shape : String) (reader : Slot) : String :=
  s!"    {source.expr.render} -> {reader.expr.render} [label=\"{id.render} {shape}\", " ++
    s!"taillabel=\"{source.index}\", headlabel=\"{reader.index}\"];\n"

/-- The lines of a connector. The shape stays empty when the source is not there. -/
def connectorLines (b : Body) (id : ConnectorId) (c : Connector) : String :=
  let shape := match b.descriptor c.sourcePort with
    | .ok d => d.shape.render
    | .error _ => ""
  String.join ((OrderedSet.toList c.readers).map (edgeLine id c.source shape))

end Dot

/-- The drawing of a body. -/
def Body.dot (b : Body) : String :=
  "digraph lir \x7b\n" ++
    "    rankdir=TB;\n" ++
    "    node [fontname=\"Helvetica\", fontsize=10];\n" ++
    "    edge [fontname=\"Helvetica\", fontsize=9];\n" ++
    "\n" ++
    String.join (b.scheduled.map Dot.nodeLine) ++
    "\n" ++
    String.join (b.connectors.entries.map fun (id, c) => Dot.connectorLines b id c) ++
    "\x7d\n"

end TensorIR
