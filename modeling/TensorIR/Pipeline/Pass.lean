/-!
# Passes

The way from a program to a checked body has four steps, each needing what an earlier one made. The
passes that a result needs are all those it depends on, in dependency order (`Pass.required`).
-/

set_option autoImplicit false

namespace TensorIR

/-- The steps from a program to a checked body. -/
inductive Pass where
  | buildModel
  | lower
  | inferShapes
  | validate
deriving DecidableEq, Repr

/-- What passes make. -/
inductive Artifact where
  | model
  | body
  | resultShapes
deriving DecidableEq, Repr

namespace Pass

def name : Pass → String
  | .buildModel => "build_model"
  | .lower => "lower"
  | .inferShapes => "infer_shapes"
  | .validate => "validate"

/-- The passes whose results a pass uses. -/
def inputs : Pass → List Pass
  | .buildModel => []
  | .lower => [.buildModel]
  | .inferShapes => [.lower]
  | .validate => [.inferShapes]

/-- What a pass makes. -/
def outputs : Pass → List Artifact
  | .buildModel => [.model]
  | .lower => [.body]
  | .inferShapes => [.resultShapes]
  | .validate => []

/-- What holds after a pass has succeeded, in words. -/
def guarantee : Pass → String
  | .buildModel => "operations known, attributes typed, operands defined earlier"
  | .lower => "one expression per node, connectors wired, IO ordinals assigned"
  | .inferShapes => "every output descriptor holds its inferred shape"
  | .validate => "expression invariants, connector bookkeeping and shape agreement hold"

/-- The length of the longest chain of passes that a pass depends on. -/
def depth : Pass → Nat
  | .buildModel => 0
  | .lower => 1
  | .inferShapes => 2
  | .validate => 3

theorem depth_lt_of_mem_inputs {p q : Pass} (h : q ∈ p.inputs) : q.depth < p.depth := by
  cases p <;> simp_all [inputs, depth]

/-- The passes that a pass needs, itself last, each once and after those it depends on. -/
def required (p : Pass) : List Pass :=
  (p.inputs.attach.flatMap fun q => required q.val).eraseDups ++ [p]
termination_by p.depth
decreasing_by exact depth_lt_of_mem_inputs q.property

end Pass

end TensorIR
