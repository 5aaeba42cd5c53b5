import Mathlib.Data.List.Nodup
import TensorIR.Proofs.Expression.Making

/-!
# Loops, each listed once

Whether a list of loops repeats one is found by going through it with the loops seen so far. What
has been passed when a loop is found has no repetition, and the loop is in it or was seen earlier
(`firstRepeated_eq_some_iff`). At the beginning nothing was seen, so the loop found is the one at
the first place at which an earlier one comes again (`firstRepeated_nil_eq_some_iff`).

An expression therefore takes the lists without repetition and no others, and whatever else is tried
on it, its own list stays one of them.
-/

set_option autoImplicit false

namespace TensorIR.Expression

variable {seen loops : List Nat} {loop i : Nat} {e e' : Expression}

/-! ## The first repetition -/

/-- The loop at the place is there earlier too. -/
def Repeats (loops : List Nat) (i : Nat) : Prop :=
  ∃ j, j < i ∧ i < loops.length ∧ loops[j]? = loops[i]?

/-- A loop comes again at the place, and at no place before. -/
structure FirstRepeat (loops : List Nat) (i : Nat) : Prop where
  repeats : Repeats loops i
  first : ∀ k, k < i → ¬ Repeats loops k

/-- Nothing is found in what is passed before a loop is found, and that loop was seen or is in what
was passed. By induction on the list, for any loops seen before. -/
theorem firstRepeated_eq_some_iff : firstRepeated seen loops = some loop ↔
    ∃ front back, loops = front ++ loop :: back ∧ firstRepeated seen front = none ∧
      (loop ∈ seen ∨ loop ∈ front) := by
  induction loops generalizing seen with
  | nil => simp [firstRepeated]
  | cons l ls ih =>
    rw [firstRepeated]
    by_cases hseen : l ∈ seen
    · rw [if_pos hseen]
      constructor
      · rintro ⟨⟩
        exact ⟨[], ls, rfl, rfl, .inl hseen⟩
      · rintro ⟨front, back, heq, hnone, -⟩
        cases front with
        | nil => rw [(List.cons.inj heq).1]
        | cons first front =>
          obtain ⟨rfl, -⟩ := List.cons.inj heq
          rw [firstRepeated, if_pos hseen] at hnone
          cases hnone
    · rw [if_neg hseen, ih]
      -- The loop that is passed moves from the front to what was seen, or back.
      have hpassed : ∀ front, firstRepeated seen (l :: front) = firstRepeated (l :: seen) front :=
        fun front => by rw [firstRepeated, if_neg hseen]
      have hmoved : ∀ front, loop ∈ l :: seen ∨ loop ∈ front ↔ loop ∈ seen ∨ loop ∈ l :: front := by
        intro front
        rw [List.mem_cons, List.mem_cons, or_left_comm, or_assoc]
      constructor
      · rintro ⟨front, back, rfl, hnone, hloop⟩
        exact ⟨l :: front, back, rfl, (hpassed front).trans hnone, (hmoved front).mp hloop⟩
      · rintro ⟨front, back, heq, hnone, hloop⟩
        cases front with
        | nil =>
          obtain ⟨rfl, -⟩ := List.cons.inj heq
          exact absurd (hloop.resolve_right List.not_mem_nil) hseen
        | cons first front =>
          obtain ⟨rfl, rfl⟩ := List.cons.inj heq
          exact ⟨front, back, rfl, (hpassed front).symm.trans hnone, (hmoved front).mpr hloop⟩

/-- Without repetition up to a place means that none of the loops before it comes again there. -/
theorem nodup_take_iff : (loops.take i).Nodup ↔ ∀ k, k < i → ¬ Repeats loops k := by
  rw [List.nodup_iff_getElem?_ne_getElem?]
  constructor
  · rintro h k hk ⟨j, hj, hlength, heq⟩
    refine h j k hj (by rw [List.length_take]; omega) ?_
    rw [List.getElem?_take_of_lt (Nat.lt_trans hj hk), List.getElem?_take_of_lt hk, heq]
  · intro h j k hj hk heq
    rw [List.length_take] at hk
    rw [List.getElem?_take_of_lt (by omega), List.getElem?_take_of_lt (by omega)] at heq
    exact h k (by omega) ⟨j, hj, by omega, heq⟩

/-- The loop that is found is the one at the first place at which a loop comes again. -/
theorem firstRepeated_nil_eq_some_iff : firstRepeated [] loops = some loop ↔
    ∃ i, loops[i]? = some loop ∧ FirstRepeat loops i := by
  rw [firstRepeated_eq_some_iff]
  constructor
  · rintro ⟨front, back, rfl, hnone, hloop⟩
    have hfound : (front ++ loop :: back)[front.length]? = some loop := by
      rw [List.getElem?_append_right (Nat.le_refl _), Nat.sub_self]
      rfl
    obtain ⟨j, hj⟩ := List.mem_iff_getElem?.mp (hloop.resolve_left List.not_mem_nil)
    have hlt := (List.getElem?_eq_some_iff.mp hj).1
    refine ⟨front.length, hfound, ⟨j, hlt, by simp, ?_⟩, nodup_take_iff.mp ?_⟩
    · rw [List.getElem?_append_left hlt, hj, hfound]
    · rwa [List.take_left, ← firstRepeated_nil_eq_none_iff]
  · rintro ⟨i, hloop, ⟨j, hj, hlength, heq⟩, hfirst⟩
    have hnone := firstRepeated_nil_eq_none_iff.mpr (nodup_take_iff.mpr hfirst)
    refine ⟨loops.take i, loops.drop (i + 1), ?_, hnone, .inr ?_⟩
    · obtain ⟨hi, rfl⟩ := List.getElem?_eq_some_iff.mp hloop
      rw [← List.drop_eq_getElem_cons hi, List.take_append_drop]
    · refine List.mem_iff_getElem?.mpr ⟨j, ?_⟩
      rw [List.getElem?_take_of_lt hj, heq, hloop]

/-! ## Taking a list of loops -/

theorem withLoops_eq_ok_iff :
    e.withLoops loops = .ok e' ↔ loops.Nodup ∧ e' = { e with loops := loops } := by
  rw [← firstRepeated_nil_eq_none_iff, withLoops]
  cases firstRepeated [] loops <;> simp [eq_comm]

theorem withLoops_eq_error_iff {err : IrError} : e.withLoops loops = .error err ↔
    ∃ i loop, loops[i]? = some loop ∧ FirstRepeat loops i ∧ err = .duplicateLoopId loop := by
  have hfound : e.withLoops loops = .error err ↔
      ∃ loop, firstRepeated [] loops = some loop ∧ err = .duplicateLoopId loop := by
    rw [withLoops]
    cases firstRepeated [] loops <;> simp [eq_comm]
  simp only [hfound, firstRepeated_nil_eq_some_iff]
  constructor
  · rintro ⟨loop, ⟨i, hloop, hfirst⟩, rfl⟩
    exact ⟨i, loop, hloop, hfirst, rfl⟩
  · rintro ⟨i, loop, hloop, hfirst, rfl⟩
    exact ⟨loop, ⟨i, hloop, hfirst⟩, rfl⟩

theorem loops_of_make {node : Node} {inputs outputs : List ConnectorId} {user : Option Provider}
    (h : make node inputs outputs user = .ok e) : e.loops = [] := by
  unfold make at h
  split at h
  · split at h
    · obtain rfl := Except.ok.inj h
      rfl
    · cases h
  · cases h

end TensorIR.Expression
