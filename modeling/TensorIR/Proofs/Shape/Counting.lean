import Mathlib.Algebra.BigOperators.Ring.List
import Mathlib.Algebra.Order.Ring.Nat
import Mathlib.Data.List.TakeWhile
import TensorIR.Shape

/-!
# The number of elements

A static shape has as many elements as the product of its sizes says. Counting multiplies the sizes
from the outermost one inwards and gives up as soon as a product exceeds a word. If no size is zero,
products only grow, so the count is there exactly if it is a word. A zero makes the count zero
wherever it stands, but counting has to get as far as the zero first (`foldlM_countStep`): a count
may be missing although it is zero (`elements?_zero_last`).
-/

set_option autoImplicit false

namespace TensorIR.Shape

/-- The sizes of the static dimensions, outermost first. -/
def sizes (s : Shape) : List Nat := s.dims.filterMap fun
  | .dynamic => none
  | .static size => some size.val

/-- The sizes that are counted before the first zero. -/
def sizesBeforeZero (s : Shape) : List Nat := s.sizes.takeWhile (· ≠ 0)

variable {s t : Shape}

theorem sizes_of_perm (h : t.dims.Perm s.dims) : t.sizes.Perm s.sizes := h.filterMap _

theorem sizesBeforeZero_eq (h : 0 ∉ s.sizes) : s.sizesBeforeZero = s.sizes := by
  rw [sizesBeforeZero, List.takeWhile_eq_self_iff]
  intro n hn
  exact decide_eq_true fun hzero => h (hzero ▸ hn)

theorem foldlM_countStep_of_dynamic {ds : List Dim} (h : .dynamic ∈ ds) (count : Nat) :
    ds.foldlM countStep count = none := by
  induction ds generalizing count with
  | nil => cases h
  | cons d ds ih =>
    rw [List.foldlM_cons]
    cases d with
    | dynamic => rfl
    | static size =>
      have hrest : .dynamic ∈ ds := (List.mem_cons.mp h).resolve_left Dim.noConfusion
      cases countStep count (.static size) with
      | none => rfl
      | some next => exact ih hrest next

theorem countStep_static (count : Nat) (size : Size) :
    countStep count (.static size) =
      if count * size.val < Numeral.wordBound then some (count * size.val) else none := rfl

/-- Counting on from a word. What comes after a zero is multiplied too, but stays zero. -/
theorem foldlM_countStep {ds : List Dim} (h : .dynamic ∉ ds) {count : Nat}
    (hcount : count < Numeral.wordBound) : ds.foldlM countStep count =
      if count * (sizesBeforeZero ⟨ds⟩).prod < Numeral.wordBound then
        some (count * (sizes ⟨ds⟩).prod)
      else none := by
  induction ds generalizing count with
  | nil => simp [sizesBeforeZero, sizes, hcount]
  | cons d ds ih =>
    rw [List.mem_cons, not_or] at h
    cases d with
    | dynamic => exact absurd rfl h.1
    | static size =>
      have hsizes : sizes ⟨.static size :: ds⟩ = size.val :: sizes ⟨ds⟩ := rfl
      rw [List.foldlM_cons, countStep_static, hsizes, List.prod_cons, ← mul_assoc]
      by_cases hzero : size.val = 0
      · have hbefore : sizesBeforeZero ⟨.static size :: ds⟩ = [] := by
          rw [sizesBeforeZero, hsizes, List.takeWhile_cons_of_neg (by simp [hzero])]
        have hrest : ds.foldlM countStep 0 = some 0 := by
          rw [ih h.2 (by decide)]
          simp
        rw [hbefore, hzero]
        simpa [hcount] using hrest
      · have hbefore : sizesBeforeZero ⟨.static size :: ds⟩ =
            size.val :: sizesBeforeZero ⟨ds⟩ := by
          rw [sizesBeforeZero, hsizes, List.takeWhile_cons_of_pos (by simp [hzero])]
          rfl
        rw [hbefore, List.prod_cons, ← mul_assoc]
        by_cases hnext : count * size.val < Numeral.wordBound
        · rw [if_pos hnext]
          exact ih h.2 hnext
        · -- No size before the zero is zero, so the product does not come back below the bound.
          have hpos : 0 < (sizesBeforeZero ⟨ds⟩).prod := by
            refine Nat.pos_of_ne_zero (List.prod_ne_zero fun hmem => ?_)
            have hkept : decide (0 ≠ 0) = true :=
              List.mem_takeWhile_imp (p := fun n : Nat => decide (n ≠ 0)) hmem
            exact of_decide_eq_true hkept rfl
          have hgrows : count * size.val ≤ count * size.val * (sizesBeforeZero ⟨ds⟩).prod :=
            Nat.le_mul_of_pos_right _ hpos
          rw [if_neg hnext, if_neg (by omega)]
          rfl

/-- A shape with a dynamic dimension has no count. For any other, the count is the product of the
sizes, and it is there if those before the first zero multiply to a word. Without zeros this says
that the count is there exactly if it is a word, and then the order of the dimensions does not
matter. -/
theorem element_count_exact (s : Shape) :
    (s.elements? = if .dynamic ∈ s.dims then none
      else if s.sizesBeforeZero.prod < Numeral.wordBound then some s.sizes.prod else none) ∧
    (0 ∉ s.sizes →
      (s.elements? = if .dynamic ∈ s.dims then none
        else if s.sizes.prod < Numeral.wordBound then some s.sizes.prod else none) ∧
      ∀ t : Shape, t.dims.Perm s.dims → t.elements? = s.elements?) := by
  have hexact : ∀ s : Shape, s.elements? = if .dynamic ∈ s.dims then none
      else if s.sizesBeforeZero.prod < Numeral.wordBound then some s.sizes.prod else none := by
    intro s
    by_cases hdynamic : .dynamic ∈ s.dims
    · rw [if_pos hdynamic, elements?, foldlM_countStep_of_dynamic hdynamic]
    · rw [if_neg hdynamic, elements?, foldlM_countStep hdynamic (by decide), one_mul, one_mul]
  refine ⟨hexact s, fun hzero => ⟨?_, fun t hperm => ?_⟩⟩
  · rw [hexact, sizesBeforeZero_eq hzero]
  · have hsizes := sizes_of_perm hperm
    have hzero' : 0 ∉ t.sizes := fun hmem => hzero (hsizes.mem_iff.mp hmem)
    rw [hexact, hexact, sizesBeforeZero_eq hzero, sizesBeforeZero_eq hzero', hsizes.prod_eq]
    simp only [hperm.mem_iff]

/-- Two orders of the same dimensions, none of them zero. -/
theorem element_count_exact_matrix :
    0 ∉ (⟨[.static 2, .static 3]⟩ : Shape).sizes ∧
    (⟨[.static 2, .static 3]⟩ : Shape).elements? = some 6 ∧
    (⟨[.static 3, .static 2]⟩ : Shape).elements? = some 6 := by
  have hzero : 0 ∉ (⟨[.static 2, .static 3]⟩ : Shape).sizes := by decide
  obtain ⟨-, hstatic⟩ := element_count_exact ⟨[.static 2, .static 3]⟩
  obtain ⟨hcount, hperm⟩ := hstatic hzero
  refine ⟨hzero, hcount.trans (by decide), ?_⟩
  exact (hperm ⟨[.static 3, .static 2]⟩ (by decide)).trans (hcount.trans (by decide))

/-- There are no elements, but whether they are counted depends on where the zero stands. -/
theorem elements?_zero_last :
    (⟨[.static 9223372036854775808, .static 2, .static 0]⟩ : Shape).sizes.prod = 0 ∧
    (⟨[.static 9223372036854775808, .static 2, .static 0]⟩ : Shape).elements? = none ∧
    (⟨[.static 0, .static 9223372036854775808, .static 2]⟩ : Shape).elements? = some 0 := by
  decide

end TensorIR.Shape
