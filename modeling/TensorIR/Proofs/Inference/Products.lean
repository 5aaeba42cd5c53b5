import TensorIR.Proofs.Inference.Monotone
import TensorIR.Proofs.Shape.Indexing

/-!
# Products of several matrices

A shape of rank two or more is a matrix under outer dimensions, and that is how the rule for
products reads it: `product_matrix` gives its answer. In a product of three matrices both ways of putting
brackets check the same two contracted dimensions, and they broadcast the same outer dimensions. As
broadcasting is associative also where it fails, the two ways succeed on the same shapes with the
same outcome (`matmul_assoc`).

The rule takes its operands apart by patterns. `matmulAt?` does the same by index, as one would do
on arrays, with every index checked; it always has an answer, and that of the rule
(`matmulAt?_eq`).
-/

set_option autoImplicit false

namespace TensorIR

/-! ## Matrices under outer dimensions -/

namespace Shape

/-- Matrices of the given numbers of rows and columns, one for each index of the outer shape. -/
def matrix (outer : Shape) (rows columns : Dim) : Shape := ⟨outer.dims ++ [rows, columns]⟩

variable {s outer outer' : Shape} {rows rows' columns columns' : Dim}

theorem reverse_dims_matrix :
    (matrix outer rows columns).dims.reverse = columns :: rows :: outer.dims.reverse := by
  simp [matrix]

theorem eq_matrix_iff : s = matrix outer rows columns ↔
    s.dims.reverse = columns :: rows :: outer.dims.reverse := by
  constructor
  · rintro rfl
    exact reverse_dims_matrix
  · intro h
    cases s
    exact congrArg Shape.mk (List.reverse_injective (h.trans reverse_dims_matrix.symm))

theorem exists_matrix (h : 2 ≤ s.rank) : ∃ outer rows columns, s = matrix outer rows columns := by
  rw [rank, ← List.length_reverse] at h
  rcases hdims : s.dims.reverse with _ | ⟨columns, _ | ⟨rows, rest⟩⟩
  · rw [hdims] at h
    simp at h
  · rw [hdims] at h
    simp at h
  · exact ⟨⟨rest.reverse⟩, rows, columns, eq_matrix_iff.mpr (by rw [List.reverse_reverse, hdims])⟩

theorem matrix_inj : matrix outer rows columns = matrix outer' rows' columns' ↔
    outer = outer' ∧ rows = rows' ∧ columns = columns' := by
  constructor
  · intro h
    have hdims := congrArg (fun s => s.dims.reverse) h
    simp only [reverse_dims_matrix, List.cons.injEq] at hdims
    obtain ⟨hcolumns, hrows, houter⟩ := hdims
    refine ⟨?_, hrows, hcolumns⟩
    cases outer
    cases outer'
    exact congrArg Shape.mk (List.reverse_injective houter)
  · rintro ⟨rfl, rfl, rfl⟩
    rfl

end Shape

namespace ShapeRule

open Shape (matrix exists_matrix matrix_inj reverse_dims_matrix)

variable {a b c out outerA outerB : Shape} {m n k k' : Dim}

/-! ## One product -/

/-- A shape that is no matrix has at most one dimension. -/
theorem reverse_dims_of_rank_lt {s : Shape} (h : s.rank < 2) :
    s.dims.reverse = [] ∨ ∃ d, s.dims.reverse = [d] := by
  rw [Shape.rank, ← List.length_reverse] at h
  rcases hdims : s.dims.reverse with _ | ⟨d, _ | ⟨d', rest⟩⟩
  · exact .inl rfl
  · exact .inr ⟨d, rfl⟩
  · rw [hdims, List.length_cons, List.length_cons] at h
    omega

theorem product_of_rank_left (b : Shape) (h : a.rank < 2) : product a b = .error (.rank a 2) := by
  rcases reverse_dims_of_rank_lt h with hdims | ⟨d, hdims⟩
  · rw [product, hdims]
  · rw [product, hdims]

theorem product_of_rank_right (ha : 2 ≤ a.rank) (hb : b.rank < 2) :
    product a b = .error (.rank b 2) := by
  obtain ⟨outer, rows, columns, rfl⟩ := exists_matrix ha
  rcases reverse_dims_of_rank_lt hb with hdims | ⟨d, hdims⟩
  · rw [product, reverse_dims_matrix, hdims]
  · rw [product, reverse_dims_matrix, hdims]

theorem product_matrix (outerA outerB : Shape) (m k k' n : Dim) :
    product (matrix outerA m k) (matrix outerB k' n) =
      if contracts k k' then
        match outerA.broadcast? outerB with
        | some outer => .ok (matrix outer m n)
        | none => .error (.incompatible (matrix outerA m k) (matrix outerB k' n))
      else .error (.incompatible (matrix outerA m k) (matrix outerB k' n)) := by
  unfold product
  rw [reverse_dims_matrix, reverse_dims_matrix, Shape.broadcast?]
  dsimp only
  cases Shape.mergeInner outerA.dims.reverse outerB.dims.reverse with
  | none => rfl
  | some batch => simp [matrix]

/-- A product of two shapes, both of them matrices, whose inner dimensions fit and whose outer
dimensions broadcast. -/
theorem infer_matmul_pair_iff : matmul.infer [a, b] = .ok (.success [out]) ↔
    ∃ outerA m k outerB k' n outer, a = matrix outerA m k ∧ b = matrix outerB k' n ∧
      contracts k k' = true ∧ outerA.broadcast? outerB = some outer ∧ out = matrix outer m n := by
  have hproduct : matmul.infer [a, b] = .ok (.success [out]) ↔ product a b = .ok out := by
    rw [infer_matmul_iff]
    constructor
    · rintro ⟨a', b', out', hoperands, hout, heq⟩
      cases hoperands
      cases heq
      exact hout
    · exact fun h => ⟨a, b, out, rfl, h, rfl⟩
  rw [hproduct]
  constructor
  · intro h
    have ha : 2 ≤ a.rank := by
      by_contra hrank
      rw [product_of_rank_left b (Nat.lt_of_not_le hrank)] at h
      cases h
    have hb : 2 ≤ b.rank := by
      by_contra hrank
      rw [product_of_rank_right ha (Nat.lt_of_not_le hrank)] at h
      cases h
    obtain ⟨outerA, m, k, rfl⟩ := exists_matrix ha
    obtain ⟨outerB, k', n, rfl⟩ := exists_matrix hb
    rw [product_matrix] at h
    split at h
    next hfits =>
      split at h
      next outer houter =>
        exact ⟨outerA, m, k, outerB, k', n, outer, rfl, rfl, hfits, houter, (Except.ok.inj h).symm⟩
      next => cases h
    next => cases h
  · rintro ⟨outerA, m, k, outerB, k', n, outer, rfl, rfl, hfits, houter, rfl⟩
    rw [product_matrix, if_pos hfits, houter]

/-! ## Three matrices -/

/-- The shapes are three matrices to be multiplied one after the other: the inner dimensions fit,
the outer ones broadcast, and what comes out has the rows of the first and the columns of the
last. -/
def Chain (a b c out : Shape) : Prop :=
  ∃ outerA m k outerB k' l outerC l' n outer,
    a = matrix outerA m k ∧ b = matrix outerB k' l ∧ c = matrix outerC l' n ∧
    contracts k k' = true ∧ contracts l l' = true ∧
    ((outerA.broadcast? outerB).bind fun outerAB => outerAB.broadcast? outerC) = some outer ∧
    out = matrix outer m n

theorem chain_iff_left : (∃ ab, matmul.infer [a, b] = .ok (.success [ab]) ∧
    matmul.infer [ab, c] = .ok (.success [out])) ↔ Chain a b c out := by
  simp only [infer_matmul_pair_iff]
  constructor
  · rintro ⟨_, ⟨outerA, m, k, outerB, k', l, outerAB, rfl, rfl, hk, hAB, rfl⟩,
      _, _, _, outerC, l', n, outer, heq, rfl, hl, houter, rfl⟩
    obtain ⟨rfl, rfl, rfl⟩ := matrix_inj.mp heq
    exact ⟨outerA, m, k, outerB, k', l, outerC, l', n, outer, rfl, rfl, rfl, hk, hl,
      by rw [hAB, Option.bind_some, houter], rfl⟩
  · rintro ⟨outerA, m, k, outerB, k', l, outerC, l', n, outer, rfl, rfl, rfl, hk, hl, houter, rfl⟩
    obtain ⟨outerAB, hAB, houter⟩ := Option.bind_eq_some_iff.mp houter
    exact ⟨_, ⟨outerA, m, k, outerB, k', l, outerAB, rfl, rfl, hk, hAB, rfl⟩,
      outerAB, m, l, outerC, l', n, outer, rfl, rfl, hl, houter, rfl⟩

theorem chain_iff_right : (∃ bc, matmul.infer [b, c] = .ok (.success [bc]) ∧
    matmul.infer [a, bc] = .ok (.success [out])) ↔ Chain a b c out := by
  simp only [infer_matmul_pair_iff, Chain, Shape.broadcast?_assoc]
  constructor
  · rintro ⟨_, ⟨outerB, k', l, outerC, l', n, outerBC, rfl, rfl, hl, hBC, rfl⟩,
      outerA, m, k, _, _, _, outer, rfl, heq, hk, houter, rfl⟩
    obtain ⟨rfl, rfl, rfl⟩ := matrix_inj.mp heq
    exact ⟨outerA, m, k, outerB, k', l, outerC, l', n, outer, rfl, rfl, rfl, hk, hl,
      by rw [hBC, Option.bind_some, houter], rfl⟩
  · rintro ⟨outerA, m, k, outerB, k', l, outerC, l', n, outer, rfl, rfl, rfl, hk, hl, houter, rfl⟩
    obtain ⟨outerBC, hBC, houter⟩ := Option.bind_eq_some_iff.mp houter
    exact ⟨_, ⟨outerB, k', l, outerC, l', n, outerBC, rfl, rfl, hl, hBC, rfl⟩,
      outerA, m, k, outerBC, k', n, outer, rfl, rfl, hk, houter, rfl⟩

/-! ## By index -/

/-- The dimension at an index counted from the end, if the index is within bounds. -/
def back? (s : Shape) (index : Nat) : Option Dim :=
  if index ≤ s.rank then s.dims[s.rank - index]? else none

/-- The dimensions in front of an index counted from the end, if the index is within bounds. -/
def front? (s : Shape) (index : Nat) : Option Shape :=
  if index ≤ s.rank then some ⟨s.dims.take (s.rank - index)⟩ else none

/-- The rule for products by index. There is no answer if an index is out of bounds. -/
def matmulAt? (operands : List Shape) : Option (Except ShapeError Inference) := do
  if operands.length ≠ 2 then return .error (.inputCount 2 operands.length)
  let a ← operands[0]?
  let b ← operands[1]?
  if a.rank < 2 then return .error (.rank a 2)
  if b.rank < 2 then return .error (.rank b 2)
  let m ← back? a 2
  let k ← back? a 1
  let k' ← back? b 2
  let n ← back? b 1
  if !contracts k k' then return .error (.incompatible a b)
  let outerA ← front? a 2
  let outerB ← front? b 2
  let (fits, outer) ← outerA.broadcastInto? outerB
  if !fits then return .error (.incompatible a b)
  return .ok (.success [matrix outer m n])

theorem back?_matrix_two (outer : Shape) (rows columns : Dim) :
    back? (matrix outer rows columns) 2 = some rows := by
  simp [back?, matrix, Shape.rank]

theorem back?_matrix_one (outer : Shape) (rows columns : Dim) :
    back? (matrix outer rows columns) 1 = some columns := by
  simp [back?, matrix, Shape.rank]

theorem front?_matrix (outer : Shape) (rows columns : Dim) :
    front? (matrix outer rows columns) 2 = some outer := by
  simp [front?, matrix, Shape.rank]

/-- With two operands the ranks are checked first, one after the other. -/
theorem matmulAt?_of_rank_left {a : Shape} (b : Shape) (ha : a.rank < 2) :
    matmulAt? [a, b] = some (.error (.rank a 2)) :=
  if_pos ha

theorem matmulAt?_of_rank_right {a b : Shape} (ha : ¬ a.rank < 2) (hb : b.rank < 2) :
    matmulAt? [a, b] = some (.error (.rank b 2)) :=
  (if_neg ha).trans (if_pos hb)

/-- The ranks that a matrix has let all look-ups through. -/
theorem matmulAt?_matrix (outerA outerB : Shape) (m k k' n : Dim) :
    matmulAt? [matrix outerA m k, matrix outerB k' n] =
      some ((product (matrix outerA m k) (matrix outerB k' n)).map fun out => .success [out]) := by
  have hrank : ∀ (outer : Shape) (rows columns : Dim), ¬ (matrix outer rows columns).rank < 2 :=
    fun outer rows columns => by simp [matrix, Shape.rank]
  rw [product_matrix]
  refine (if_neg (hrank outerA m k)).trans ((if_neg (hrank outerB k' n)).trans ?_)
  simp only [back?_matrix_two, back?_matrix_one, front?_matrix, Shape.broadcastInto?_eq,
    Option.bind_eq_bind, Option.bind_some]
  cases contracts k k' with
  | false => rfl
  | true => cases outerA.broadcast? outerB <;> rfl

theorem matmulAt?_eq (operands : List Shape) :
    matmulAt? operands = some (matmul.infer operands) := by
  match operands with
  | [] | [_] | _ :: _ :: _ :: _ => simp [matmulAt?, infer]
  | [a, b] =>
    show matmulAt? [a, b] = some ((product a b).map fun out => .success [out])
    by_cases ha : a.rank < 2
    · rw [matmulAt?_of_rank_left b ha, product_of_rank_left b ha]
      rfl
    by_cases hb : b.rank < 2
    · rw [matmulAt?_of_rank_right ha hb, product_of_rank_right (Nat.not_lt.mp ha) hb]
      rfl
    obtain ⟨outerA, m, k, rfl⟩ := exists_matrix (Nat.not_lt.mp ha)
    obtain ⟨outerB, k', n, rfl⟩ := exists_matrix (Nat.not_lt.mp hb)
    exact matmulAt?_matrix outerA outerB m k k' n

/-! ## The law -/

/-- Products of three matrices are associative: with brackets on the left and with brackets on the
right inference succeeds on the same operands, with the same shape, which is that of the chain. No
index that the rule uses is out of bounds, whatever the operands are. -/
theorem matmul_assoc :
    (∀ a b c out : Shape,
      ((∃ ab, matmul.infer [a, b] = .ok (.success [ab]) ∧
        matmul.infer [ab, c] = .ok (.success [out])) ↔ Chain a b c out) ∧
      ((∃ bc, matmul.infer [b, c] = .ok (.success [bc]) ∧
        matmul.infer [a, bc] = .ok (.success [out])) ↔ Chain a b c out)) ∧
    ∀ operands : List Shape, matmulAt? operands = some (matmul.infer operands) :=
  ⟨fun _ _ _ _ => ⟨chain_iff_left, chain_iff_right⟩, matmulAt?_eq⟩

end ShapeRule

end TensorIR
