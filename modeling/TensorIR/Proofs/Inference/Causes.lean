import TensorIR.Proofs.Inference.Products

/-!
# What can go wrong in a built-in rule

Three tables have to agree: how many operands and outputs an operation has, which rule it gets, and
what the rule expects. `Accepts` says which numbers of operands a rule is made for, and each
operation has such a number (`accepts_inputCount`). Then a rule fails only because of the shapes
themselves (`infer_error`), and what it answers has one shape for each output (`infer_ok`).

A rule also looks into the list of its operands and into their dimensions. `inferAt?` does so by
index and checks each of them. None is out of bounds, whatever the operands are (`inferAt?_eq`),
since the rule has looked at the numbers before.
-/

set_option autoImplicit false

namespace TensorIR

/-- The reason lies in the shapes of the operands. -/
inductive ShapeError.OfShapes : ShapeError → Prop where
  | incompatible (lhs rhs : Shape) : OfShapes (.incompatible lhs rhs)
  | rank (shape : Shape) (minRank : Nat) : OfShapes (.rank shape minRank)
  | axis (axis : Nat) (shape : Shape) : OfShapes (.axis axis shape)

namespace ShapeRule

variable {rule : ShapeRule} {op : Op} {operands : List Shape} {cause : ShapeError}

/-! ## What a rule is made for -/

/-- The rule is made for that many operands. -/
def Accepts : ShapeRule → Nat → Prop
  | .passThrough, count => 0 < count
  | .broadcast inputs, count => count = inputs ∧ 0 < inputs
  | .nothing, _ | .singleElement, _ | .declared _, _ => True
  | .innermost _, count | .reduce _, count => count = 1
  | .matmul, count => count = 2

/-- The number of shapes that the rule answers with. -/
def outputCount : ShapeRule → Nat
  | .nothing => 0
  | _ => 1

theorem accepts_inputCount (h : ofOp? op = some rule) : rule.Accepts op.inputCount := by
  cases op <;> cases h <;> simp [Accepts, Op.inputCount]

theorem outputCount_eq (h : ofOp? op = some rule) : rule.outputCount = op.outputCount := by
  cases op <;> cases h <;> rfl

theorem ne_broadcast_zero (h : ofOp? op = some rule) : rule ≠ .broadcast 0 := by
  cases op <;> cases h <;> simp

/-! ## Success and failure -/

theorem map_success_ne_skip {found : Except ShapeError Shape} {shapes : List Shape} :
    (found.map fun out => Inference.success [out]) ≠ .ok (.skip shapes) := by
  cases found <;> simp [Except.map]

theorem infer_ne_skip (shapes : List Shape) : rule.infer operands ≠ .ok (.skip shapes) := by
  cases rule with
  | passThrough => cases operands <;> simp [infer]
  | broadcast inputs =>
    by_cases hcount : operands.length = inputs
    · cases operands with
      | nil => simp [infer, hcount]
      | cons first others => simp [infer, hcount, map_success_ne_skip]
    · simp [infer, hcount]
  | nothing | singleElement | declared => simp [infer]
  | innermost dim =>
    rcases operands with _ | ⟨shape, _ | ⟨_, _⟩⟩
    · simp [infer]
    · rw [infer]
      split <;> simp
    · simp [infer]
  | reduce axis =>
    rcases operands with _ | ⟨shape, _ | ⟨_, _⟩⟩
    · simp [infer]
    · rw [infer]
      split <;> simp
    · simp [infer]
  | matmul =>
    rcases operands with _ | ⟨a, _ | ⟨b, _ | ⟨_, _⟩⟩⟩
    · simp [infer]
    · simp [infer]
    · exact map_success_ne_skip
    · simp [infer]

/-- A rule never declines, and answers with the number of shapes it is made for. -/
theorem infer_ok {answer : Inference} (h : rule.infer operands = .ok answer) :
    ∃ out, answer = .success out ∧ out.length = rule.outputCount := by
  cases answer with
  | skip shapes => exact absurd h (infer_ne_skip shapes)
  | success out =>
    refine ⟨out, rfl, ?_⟩
    cases rule with
    | passThrough =>
      obtain ⟨shape, rest, -, rfl⟩ := infer_passThrough_iff.mp h
      rfl
    | broadcast inputs =>
      obtain ⟨-, first, others, merged, -, -, rfl⟩ := infer_broadcast_iff.mp h
      rfl
    | nothing | singleElement | declared =>
      cases h
      rfl
    | innermost dim =>
      obtain ⟨shape, -, -, rfl⟩ := infer_innermost_iff.mp h
      rfl
    | reduce axis =>
      obtain ⟨shape, -, -, rfl⟩ := infer_reduce_iff.mp h
      rfl
    | matmul =>
      obtain ⟨a, b, merged, -, -, rfl⟩ := infer_matmul_iff.mp h
      rfl

theorem broadcastAll_error {first : Shape} {others : List Shape}
    (h : broadcastAll first others = .error cause) : cause.OfShapes := by
  induction others generalizing first with
  | nil => cases h
  | cons shape shapes ih =>
    rw [broadcastAll] at h
    cases hmerged : first.broadcast? shape with
    | some merged =>
      rw [hmerged] at h
      exact ih h
    | none =>
      rw [hmerged] at h
      cases h
      exact .incompatible first shape

theorem product_error {a b : Shape} (h : product a b = .error cause) : cause.OfShapes := by
  unfold product at h
  split at h
  · split at h
    · split at h
      · cases h
      · cases h
        exact .incompatible a b
    · cases h
      exact .incompatible a b
  · cases h
    exact .rank b 2
  · cases h
    exact .rank a 2

/-- With a number of operands that it is made for, a rule fails because of their shapes. -/
theorem infer_error (hcount : rule.Accepts operands.length)
    (h : rule.infer operands = .error cause) : cause.OfShapes := by
  cases rule with
  | passThrough =>
    obtain ⟨shape, rest, rfl⟩ := List.exists_cons_of_length_pos hcount
    cases h
  | broadcast inputs =>
    obtain ⟨hinputs, hpos⟩ := hcount
    obtain ⟨first, others, rfl⟩ := List.exists_cons_of_length_pos (hinputs ▸ hpos)
    rw [infer, if_neg (not_not_intro hinputs)] at h
    cases hmerged : broadcastAll first others with
    | ok merged =>
      simp [hmerged, Except.map] at h
    | error found =>
      simp only [hmerged, Except.map, Except.error.injEq] at h
      exact h ▸ broadcastAll_error hmerged
  | nothing | singleElement | declared => cases h
  | innermost dim =>
    obtain ⟨shape, rfl⟩ := List.length_eq_one_iff.mp hcount
    rw [infer] at h
    split at h
    · cases h
      exact .rank shape 1
    · cases h
  | reduce axis =>
    obtain ⟨shape, rfl⟩ := List.length_eq_one_iff.mp hcount
    rw [infer] at h
    split at h
    · cases h
      exact .axis axis shape
    · cases h
  | matmul =>
    obtain ⟨a, b, rfl⟩ := List.length_eq_two.mp hcount
    rw [infer] at h
    cases hmerged : product a b with
    | ok merged => simp [hmerged, Except.map] at h
    | error found =>
      simp only [hmerged, Except.map, Except.error.injEq] at h
      exact h ▸ product_error hmerged

/-! ## By index -/

/-- The shape with another dimension at an index, if the index is within bounds. -/
def setAt? (shape : Shape) (index : Nat) (dim : Dim) : Option Shape :=
  if index < shape.rank then some ⟨shape.dims.set index dim⟩ else none

theorem setAt?_eq {shape : Shape} {index : Nat} {dim : Dim} (h : index < shape.rank) :
    setAt? shape index dim = some ⟨shape.dims.set index dim⟩ :=
  if_pos h

/-- Broadcast further shapes into one, each in place and by index. -/
def broadcastAllAt? (out : Shape) : List Shape → Option (Except ShapeError Shape)
  | [] => some (.ok out)
  | shape :: shapes => do
    let (fits, out) ← out.broadcastInto? shape
    if fits then broadcastAllAt? out shapes
    else return .error (.incompatible out shape)

/-- The rules by index. There is no answer if an index or the start of a slice is out of bounds. -/
def inferAt? : ShapeRule → List Shape → Option (Except ShapeError Inference)
  | .broadcast inputs, operands => do
    if operands.length ≠ inputs then return .error (.inputCount inputs operands.length)
    let first ← operands[0]?
    let others ← operands.tail?
    return (← broadcastAllAt? first others).map fun out => .success [out]
  | .innermost dim, operands => do
    if operands.length ≠ 1 then return .error (.inputCount 1 operands.length)
    let shape ← operands[0]?
    if shape.rank = 0 then return .error (.rank shape 1)
    return .ok (.success [← setAt? shape (shape.rank - 1) dim])
  | .reduce axis, operands => do
    if operands.length ≠ 1 then return .error (.inputCount 1 operands.length)
    let shape ← operands[0]?
    if shape.rank ≤ axis then return .error (.axis axis shape)
    return .ok (.success [← setAt? shape axis .one])
  | .matmul, operands => matmulAt? operands
  | .passThrough, operands => match operands.head? with
    | some shape => some (.ok (.success [shape]))
    | none => some (.error (.inputCount 1 0))
  | .nothing, _ => some (.ok (.success []))
  | .singleElement, _ => some (.ok (.success [⟨[.one]⟩]))
  | .declared shape, _ => some (.ok (.success [shape]))

theorem broadcastAllAt?_eq (first : Shape) (others : List Shape) :
    broadcastAllAt? first others = some (broadcastAll first others) := by
  induction others generalizing first with
  | nil => rfl
  | cons shape shapes ih =>
    rw [broadcastAllAt?, broadcastAll, Shape.broadcastInto?_eq]
    cases first.broadcast? shape with
    | some merged => exact ih merged
    | none => rfl

/-- No index is out of bounds, unless a rule broadcasts no operands at all. -/
theorem inferAt?_eq (h : rule ≠ .broadcast 0) (operands : List Shape) :
    rule.inferAt? operands = some (rule.infer operands) := by
  cases rule with
  | passThrough => cases operands <;> rfl
  | broadcast inputs =>
    by_cases hcount : operands.length = inputs
    · cases operands with
      | nil => simp [← hcount] at h
      | cons first others =>
        simp [inferAt?, infer, hcount, broadcastAllAt?_eq]
        rfl
    · simp [inferAt?, infer, hcount]
  | nothing | singleElement | declared => rfl
  | innermost dim =>
    rcases operands with _ | ⟨shape, _ | ⟨_, _⟩⟩
    · simp [inferAt?, infer]
    · by_cases hrank : shape.rank = 0
      · simp [inferAt?, infer, hrank]
      · simp [inferAt?, infer, hrank, setAt?_eq (Nat.sub_one_lt hrank)]
    · simp [inferAt?, infer]
  | reduce axis =>
    rcases operands with _ | ⟨shape, _ | ⟨_, _⟩⟩
    · simp [inferAt?, infer]
    · by_cases haxis : shape.rank ≤ axis
      · simp [inferAt?, infer, haxis]
      · simp [inferAt?, infer, haxis, setAt?_eq (Nat.lt_of_not_le haxis)]
    · simp [inferAt?, infer]
  | matmul => exact matmulAt?_eq operands

end ShapeRule

end TensorIR
