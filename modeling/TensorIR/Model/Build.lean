import TensorIR.Model.Attributes

/-!
# From programs to models

Statements are taken in order. Each may add one node to the model; each may bind one name, to the
node or, if no node was added, to a failure. Using a name bound to a failure is not reported,
because the failure was; so one mistake leads to one report.

A name stays bound to the first statement that binds it. Binding it again is an error, but the
second statement's node is added all the same.
-/

set_option autoImplicit false

namespace TensorIR

/-- What a name is bound to. -/
inductive Binding where
  | node (index : Nat) (span : Span)
  /-- The defining statement failed. -/
  | failed (span : Span)
deriving DecidableEq, Repr

/-- Where the name was bound. -/
def Binding.span : Binding → Span
  | .node _ span | .failed span => span

/-- A model under construction. -/
structure Builder where
  model : Model
  names : List (String × Binding)
  problems : List Problem

/-- A model and what was wrong with, or odd about, the program it was built from. -/
structure ModelBuild where
  model : Model
  problems : List Problem

namespace Builder

/-- The builder before the first statement. -/
def initial : Builder := ⟨.empty, [], []⟩

/-- The builder with more problems reported. -/
def report (b : Builder) (problems : List Problem) : Builder :=
  { b with problems := b.problems ++ problems }

/-- The references that operands stand for, and the operands that are not defined. The references
are only of use if none is missing. -/
def resolve (names : List (String × Binding)) :
    List Operand → Option (List OutputRef) × List Problem
  | [] => (some [], [])
  | operand :: operands =>
    let (refs, problems) := resolve names operands
    match names.lookup operand.name.name with
    | some (.node index _) => (refs.map (⟨index, operand.port⟩ :: ·), problems)
    | some (.failed _) => (none, problems)
    | none => (none, .undefinedValue operand.name :: problems)

/-- The report of a node that does not fit into the model. -/
def refusal (s : Statement) : ModelError → Problem
  | .inputCount _ expected got => .operandCount s.op.name expected got s.span
  | .unknownProducer node input => .unknownProducer node input s.span
  | .portOutOfRange _ producer port count => .missingOutput producer port count s.span

/-- Add a node to the model. The answer is its index. -/
def addNode (b : Builder) (s : Statement) (node : Node) (inputs : List OutputRef) :
    Option Nat × Builder :=
  match b.model.add? node inputs with
  | .error err => (none, b.report [refusal s err])
  | .ok model =>
    let unusable := s.result.isSome && node.outputCount == 0
    (some b.model.nodes.length,
      { b with model := model }.report
        (if unusable then [.unusableName s.op.name s.span] else []))

/-- Bind a name, if it is not bound already. -/
def bind (b : Builder) (name : Ident) (added : Option Nat) : Builder :=
  match b.names.lookup name.name with
  | some first => b.report [.definedTwice name first.span]
  | none =>
    let binding := match added with
      | some index => Binding.node index name.span
      | none => .failed name.span
    { b with names := (name.name, binding) :: b.names }

/-- Take the statement at a position of the program. -/
def statement (b : Builder) (index : Nat) (s : Statement) : Builder :=
  let (node, described) := match s.op? with
    | .ok op => (some (Node.make (s.nodeName index) op), s.ignored op)
    | .error problem => (none, [problem])
  let (refs, unresolved) := resolve b.names s.operands
  let b := b.report (described ++ unresolved)
  let (added, b) := match node, refs with
    | some node, some refs => b.addNode s node refs
    | _, _ => (none, b)
  match s.result with
  | some name => b.bind name added
  | none => b

/-- Take statements one after the other, the first being at a position of the program. -/
def statements : Builder → Nat → List Statement → Builder
  | b, _, [] => b
  | b, index, s :: ss => statements (b.statement index s) (index + 1) ss

end Builder

/-- The model of a program. -/
def Program.model (p : Program) : ModelBuild :=
  let b := Builder.initial.statements 0 p.statements
  ⟨b.model, b.problems⟩

/-- The reports of the problems of a program. -/
def ModelBuild.diagnostics (build : ModelBuild) : List Diagnostic :=
  build.problems.map Problem.diagnostic

end TensorIR
