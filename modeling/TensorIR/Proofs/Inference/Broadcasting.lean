import TensorIR.Proofs.Inference.Monotone
import TensorIR.Proofs.Shape.Indexing

/-!
# The order of broadcasting does not matter

Operands of an element-wise operation are broadcast from left to right. What comes out is the least
upper bound of all of them (`broadcastAll_eq_ok_iff`), so neither their order nor how they are put
in groups can be told from it. `broadcast_semilattice` collects what is known about two, three and
any number of shapes.
-/

set_option autoImplicit false

namespace TensorIR.ShapeRule

variable {first out : Shape} {operands operands' others : List Shape}

theorem setOf_mem_cons (first : Shape) (others : List Shape) :
    {s | s ∈ first :: others} = insert first {s | s ∈ others} := by
  ext s
  exact List.mem_cons

theorem broadcastAll_eq_ok_iff :
    broadcastAll first others = .ok out ↔ IsLUB {s | s ∈ first :: others} out := by
  induction others generalizing first with
  | nil =>
    have hset : {s | s ∈ [first]} = {first} := by
      ext s
      exact List.mem_singleton
    rw [hset, broadcastAll, Except.ok.injEq]
    exact ⟨fun h => h ▸ isLUB_singleton, fun h => isLUB_singleton.unique h⟩
  | cons shape shapes ih =>
    rw [broadcastAll]
    cases hmerged : first.broadcast? shape with
    | some merged =>
      dsimp only
      rw [ih, setOf_mem_cons, setOf_mem_cons, setOf_mem_cons, IsLUB, IsLUB,
        Shape.upperBounds_insert_of_broadcast? hmerged]
    | none =>
      constructor
      · intro h
        cases h
      · intro h
        obtain ⟨merged, hsome⟩ := Shape.exists_broadcast? (h.1 List.mem_cons_self)
          (h.1 (List.mem_cons_of_mem first List.mem_cons_self))
        rw [hmerged] at hsome
        cases hsome

/-- The rule answers with the least upper bound of its operands, if there are as many as it was made
for and there is an upper bound. -/
theorem infer_broadcast_eq_ok_iff {inputs : Nat} {answer : Inference} :
    (broadcast inputs).infer operands = .ok answer ↔ operands.length = inputs ∧ operands ≠ [] ∧
      ∃ out, IsLUB {s | s ∈ operands} out ∧ answer = .success [out] := by
  by_cases hcount : operands.length = inputs
  · cases operands with
    | nil => simp [infer, hcount]
    | cons first others =>
      simp only [← broadcastAll_eq_ok_iff]
      cases hmerged : broadcastAll first others <;>
        simp [infer, hcount, hmerged, Except.map, eq_comm]
  · simp [infer, hcount]

theorem infer_broadcast_perm (h : operands.Perm operands') (inputs : Nat) (answer : Inference) :
    (broadcast inputs).infer operands = .ok answer ↔
      (broadcast inputs).infer operands' = .ok answer := by
  have hset : {s | s ∈ operands} = {s | s ∈ operands'} := by
    ext s
    exact h.mem_iff
  have hnil : operands ≠ [] ↔ operands' ≠ [] :=
    not_congr ⟨fun h' => (h' ▸ h).nil_eq.symm, fun h' => (h' ▸ h).eq_nil⟩
  rw [infer_broadcast_eq_ok_iff, infer_broadcast_eq_ok_iff, h.length_eq, hnil, hset]

/-- Broadcasting is commutative, associative and idempotent, and scalars are neutral to it, where a
failure makes the whole fail. It finds the least upper bound at every place, and so of the shapes;
it fails exactly where two sizes at one place differ and neither of them is one, and then leaves
the destination alone. The rule for any number of operands does not depend on their order. -/
theorem broadcast_semilattice :
    (∀ a b : Shape, a.broadcast? b = b.broadcast? a) ∧
    (∀ a b c : Shape, ((a.broadcast? b).bind fun ab => ab.broadcast? c) =
      (b.broadcast? c).bind fun bc => a.broadcast? bc) ∧
    (∀ a : Shape, a.broadcast? a = some a) ∧
    (∀ a : Shape, a.broadcast? .scalar = some a) ∧
    (∀ a b r : Shape, a.broadcast? b = some r ↔ r.rank = max a.rank b.rank ∧
      ∀ k, IsLUB {a.fromEnd k, b.fromEnd k} (r.fromEnd k)) ∧
    (∀ a b r : Shape, a.broadcast? b = some r ↔ IsLUB {a, b} r) ∧
    (∀ a b : Shape, a.broadcast? b = none ↔ ∃ k m n, a.fromEnd k = .static m ∧
      b.fromEnd k = .static n ∧ m ≠ n ∧ a.fromEnd k ≠ .one ∧ b.fromEnd k ≠ .one) ∧
    (∀ dst src : Shape, dst.broadcastInto? src = some (match dst.broadcast? src with
      | some merged => (true, merged)
      | none => (false, dst))) ∧
    ∀ (inputs : Nat) (operands operands' : List Shape), operands.Perm operands' → ∀ answer,
      (broadcast inputs).infer operands = .ok answer ↔
        (broadcast inputs).infer operands' = .ok answer := by
  refine ⟨Shape.broadcast?_comm, Shape.broadcast?_assoc, Shape.broadcast?_self,
    Shape.broadcast?_scalar, fun a b r => ?_, fun a b r => Shape.broadcast?_eq_some_iff_isLUB,
    fun a b => Shape.broadcast?_eq_none_iff, Shape.broadcastInto?_eq,
    fun inputs operands operands' h answer => infer_broadcast_perm h inputs answer⟩
  simp only [Shape.broadcast?_eq_some_iff, Dim.merge?_eq_some_iff_isLUB]

/-- A matrix with an unknown number of rows, a row and a column, in two orders. -/
theorem broadcast_semilattice_outer :
    [(⟨[.dynamic, .static 3]⟩ : Shape), ⟨[.static 3]⟩, ⟨[.static 2, .static 1]⟩].Perm
      [⟨[.static 2, .static 1]⟩, ⟨[.static 3]⟩, ⟨[.dynamic, .static 3]⟩] ∧
    (broadcast 3).infer [⟨[.static 2, .static 1]⟩, ⟨[.static 3]⟩, ⟨[.dynamic, .static 3]⟩] =
      .ok (.success [⟨[.static 2, .static 3]⟩]) := by
  have hperm : [(⟨[.dynamic, .static 3]⟩ : Shape), ⟨[.static 3]⟩, ⟨[.static 2, .static 1]⟩].Perm
      [⟨[.static 2, .static 1]⟩, ⟨[.static 3]⟩, ⟨[.dynamic, .static 3]⟩] := by decide
  obtain ⟨-, -, -, -, -, -, -, -, hany⟩ := broadcast_semilattice
  exact ⟨hperm, (hany 3 _ _ hperm _).mp (by decide)⟩

end TensorIR.ShapeRule
