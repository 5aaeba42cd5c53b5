import Mathlib.Data.List.GetD
import Mathlib.Order.Bounds.Basic
import TensorIR.Proofs.Shape.Instances

/-!
# Broadcasting finds least upper bounds

Dimensions are ordered by what they give way to: one comes first, then the dynamic dimension, then
all other sizes side by side. Two dimensions merge if they have an upper bound, and what they merge
into is the least one (`Dim.merge?_eq_some_iff_isLUB`).

Shapes are compared from the innermost dimension outwards, the missing dimensions of the shorter one
being ones, and a shape does not come before one with fewer dimensions. Broadcasting is the least
upper bound in this order too (`Shape.broadcast?_eq_some_iff_isLUB`), and it fails only where there
is no upper bound at all. Everything that can be said about the order in which shapes are broadcast
follows, because a least upper bound depends on the shapes as a set.
-/

set_option autoImplicit false

namespace TensorIR

/-! ## Dimensions -/

namespace Dim

/-- One comes before everything, and a dynamic dimension before all sizes but one. -/
instance : PartialOrder Dim where
  le a b := a = b ∨ a = .one ∨ (a = .dynamic ∧ b ≠ .one)
  le_refl a := .inl rfl
  le_trans a b c hab hbc := by
    rcases hab with rfl | rfl | ⟨rfl, hb⟩
    · exact hbc
    · exact .inr (.inl rfl)
    · rcases hbc with rfl | rfl | ⟨rfl, hc⟩
      · exact .inr (.inr ⟨rfl, hb⟩)
      · exact absurd rfl hb
      · exact .inr (.inr ⟨rfl, hc⟩)
  le_antisymm a b hab hba := by
    rcases hab with rfl | rfl | ⟨rfl, hb⟩
    · rfl
    · rcases hba with h | h | ⟨-, h⟩
      · exact h.symm
      · exact h.symm
      · exact absurd rfl h
    · rcases hba with h | h | ⟨h, -⟩
      · exact h.symm
      · exact absurd h hb
      · exact h.symm

variable {a b c d : Dim}

theorem le_iff : a ≤ b ↔ a = b ∨ a = .one ∨ (a = .dynamic ∧ b ≠ .one) := Iff.rfl

instance (a b : Dim) : Decidable (a ≤ b) := decidable_of_iff _ le_iff.symm

theorem one_le (d : Dim) : one ≤ d := .inr (.inl rfl)

theorem dynamic_le (h : d ≠ .one) : Dim.dynamic ≤ d := .inr (.inr ⟨rfl, h⟩)

/-- Nothing comes after a size, unless it is one. -/
theorem eq_of_le (h : a ≤ b) (hone : a ≠ .one) (hdynamic : a ≠ .dynamic) : b = a := by
  rcases h with rfl | h | ⟨h, -⟩
  · rfl
  · exact absurd h hone
  · exact absurd h hdynamic

/-- Two dimensions that do not go together are different sizes, and neither of them is one. -/
def Clash (a b : Dim) : Prop :=
  ∃ m n, a = .static m ∧ b = .static n ∧ m ≠ n ∧ a ≠ .one ∧ b ≠ .one

theorem merge?_eq_none_iff : merge? a b = none ↔ Clash a b := by
  constructor
  · intro h
    unfold merge? at h
    split at h
    · cases h
    next hab =>
      split at h
      · cases h
      next ha =>
        split at h
        · cases h
        next hb =>
          obtain ⟨hne, hbone⟩ := not_or.mp hab
          obtain ⟨haone, hadynamic⟩ := not_or.mp ha
          cases a with
          | dynamic => exact absurd rfl hadynamic
          | static m =>
            cases b with
            | dynamic => exact absurd rfl hb
            | static n => exact ⟨m, n, rfl, rfl, fun h => hne (h ▸ rfl), haone, hbone⟩
  · rintro ⟨m, n, rfl, rfl, hne, hm, hn⟩
    simp [merge?, hne, hm, hn]

theorem Clash.not_bounded (h : Clash a b) : ¬ (a ≤ c ∧ b ≤ c) := by
  obtain ⟨m, n, rfl, rfl, hne, hm, hn⟩ := h
  rintro ⟨ha, hb⟩
  have hcm : c = .static m := eq_of_le ha hm (by simp)
  have hcn : c = .static n := eq_of_le hb hn (by simp)
  exact hne (static.inj (hcm.symm.trans hcn))

theorem merge?_comm (a b : Dim) : merge? a b = merge? b a := by
  by_cases ha : a = .one
  · simp [ha]
  by_cases hb : b = .one
  · simp [hb]
  by_cases ha' : a = .dynamic
  · rw [ha', dynamic_merge? hb, merge?_dynamic hb]
  by_cases hb' : b = .dynamic
  · rw [hb', dynamic_merge? ha, merge?_dynamic ha]
  by_cases hab : a = b
  · rw [hab]
  · simp [merge?, ha, hb, ha', hb', hab, Ne.symm hab]

theorem le_of_merge? (h : merge? a b = some d) : a ≤ d := by
  by_cases hone : a = .one
  · exact hone ▸ one_le d
  by_cases hdynamic : a = .dynamic
  · subst hdynamic
    by_cases hb : b = .one
    · rw [hb, merge?_one] at h
      exact .inl (Option.some.inj h)
    · rw [dynamic_merge? hb] at h
      obtain rfl := Option.some.inj h
      exact dynamic_le hb
  · exact .inl (merge?_eq_left h hone hdynamic).symm

/-- A merge is one of the two sides, so it comes before whatever both sides come before. -/
theorem eq_or_eq_of_merge? (h : merge? a b = some d) : d = a ∨ d = b := by
  unfold merge? at h
  split at h
  · exact .inl (Option.some.inj h).symm
  · split at h
    · exact .inr (Option.some.inj h).symm
    · split at h
      · exact .inl (Option.some.inj h).symm
      · cases h

theorem isLUB_of_merge? (h : merge? a b = some d) : IsLUB {a, b} d := by
  constructor
  · rintro x (rfl | rfl)
    · exact le_of_merge? h
    · exact le_of_merge? ((merge?_comm x a).trans h)
  · intro c hc
    rcases eq_or_eq_of_merge? h with rfl | rfl
    · exact hc (.inl rfl)
    · exact hc (.inr rfl)

/-- Dimensions merge exactly where they have an upper bound, into the least one. -/
theorem merge?_eq_some_iff_isLUB : merge? a b = some d ↔ IsLUB {a, b} d := by
  constructor
  · exact isLUB_of_merge?
  · intro h
    cases hd : merge? a b with
    | some d' => rw [(isLUB_of_merge? hd).unique h]
    | none => exact absurd ⟨h.1 (.inl rfl), h.1 (.inr rfl)⟩ (merge?_eq_none_iff.mp hd).not_bounded

end Dim

/-! ## Shapes -/

namespace Shape

/-- The dimension that is so many places away from the innermost one; a missing one is one. -/
def fromEnd (s : Shape) (k : Nat) : Dim := s.dims.reverse.getD k .one

variable {a b c r : Shape}

theorem fromEnd_of_rank_le {s : Shape} {k : Nat} (h : s.rank ≤ k) : s.fromEnd k = .one := by
  rw [fromEnd, List.getD_eq_default]
  rwa [List.length_reverse]

/-- Lists of dimensions are the same if they are equally long and agree at every place. -/
theorem eq_of_getD {xs ys : List Dim} (hlength : xs.length = ys.length)
    (h : ∀ k, xs.getD k .one = ys.getD k .one) : xs = ys := by
  apply List.ext_getElem hlength
  intro k hk hk'
  have hat := h k
  rwa [List.getD_eq_getElem _ _ hk, List.getD_eq_getElem _ _ hk'] at hat

/-- A shape is given by its rank and its dimensions from the innermost outwards. -/
theorem ext_fromEnd (hrank : a.rank = b.rank) (h : ∀ k, a.fromEnd k = b.fromEnd k) : a = b := by
  have hlength : a.dims.reverse.length = b.dims.reverse.length := by
    rw [List.length_reverse, List.length_reverse]
    exact hrank
  have hdims : a.dims = b.dims := List.reverse_injective (eq_of_getD hlength h)
  cases a
  cases b
  exact congrArg Shape.mk hdims

/-- Shapes compare by their ranks and, dimension by dimension, from the innermost one outwards. -/
instance : PartialOrder Shape where
  le a b := a.rank ≤ b.rank ∧ ∀ k, a.fromEnd k ≤ b.fromEnd k
  le_refl a := ⟨le_refl _, fun _ => le_refl _⟩
  le_trans a b c hab hbc := ⟨hab.1.trans hbc.1, fun k => (hab.2 k).trans (hbc.2 k)⟩
  le_antisymm a b hab hba :=
    ext_fromEnd (hab.1.antisymm hba.1) fun k => (hab.2 k).antisymm (hba.2 k)

theorem le_iff : a ≤ b ↔ a.rank ≤ b.rank ∧ ∀ k, a.fromEnd k ≤ b.fromEnd k := Iff.rfl

theorem scalar_le (s : Shape) : scalar ≤ s :=
  ⟨Nat.zero_le _, fun k => by
    rw [fromEnd_of_rank_le (s := scalar) (Nat.zero_le k)]
    exact Dim.one_le _⟩

/-! ## Broadcasting by place -/

theorem mergeInner_cons (x y : Dim) (xs ys : List Dim) :
    mergeInner (x :: xs) (y :: ys) =
      (x.merge? y).bind fun d => (mergeInner xs ys).map (d :: ·) := by
  rw [mergeInner]
  cases x.merge? y <;> cases mergeInner xs ys <;> rfl

theorem mergeInner_nil_right (xs : List Dim) : mergeInner xs [] = some xs := by
  cases xs <;> rfl

/-- Lists of dimensions merge place by place, what is missing being one. -/
theorem mergeInner_eq_some_iff {xs ys ds : List Dim} :
    mergeInner xs ys = some ds ↔ ds.length = max xs.length ys.length ∧
      ∀ k, (xs.getD k .one).merge? (ys.getD k .one) = some (ds.getD k .one) := by
  induction xs generalizing ys ds with
  | nil =>
    constructor
    · intro h
      obtain rfl := Option.some.inj h
      simp
    · rintro ⟨hlength, hplaces⟩
      have heq : ys = ds :=
        eq_of_getD (by simpa using hlength.symm) fun k => by simpa using hplaces k
      exact congrArg some heq
  | cons x xs ih =>
    cases ys with
    | nil =>
      rw [mergeInner_nil_right]
      constructor
      · intro h
        obtain rfl := Option.some.inj h
        simp
      · rintro ⟨hlength, hplaces⟩
        have heq : x :: xs = ds :=
          eq_of_getD (by simpa using hlength.symm) fun k => by simpa using hplaces k
        exact congrArg some heq
    | cons y ys =>
      rw [mergeInner_cons]
      constructor
      · intro h
        obtain ⟨d, hd, hmap⟩ := Option.bind_eq_some_iff.mp h
        obtain ⟨rest, hrest, rfl⟩ := Option.map_eq_some_iff.mp hmap
        obtain ⟨hlength, hplaces⟩ := ih.mp hrest
        refine ⟨by simp [hlength, Nat.succ_max_succ], fun k => ?_⟩
        cases k with
        | zero => exact hd
        | succ k => exact hplaces k
      · rintro ⟨hlength, hplaces⟩
        cases ds with
        | nil => simp at hlength
        | cons d ds =>
          have hd : x.merge? y = some d := hplaces 0
          have hrest : mergeInner xs ys = some ds :=
            ih.mpr ⟨by simpa [Nat.succ_max_succ] using hlength, fun k => hplaces (k + 1)⟩
          rw [hd, hrest]
          rfl

theorem mergeInner_eq_none_iff {xs ys : List Dim} :
    mergeInner xs ys = none ↔ ∃ k, (xs.getD k .one).Clash (ys.getD k .one) := by
  simp only [← Dim.merge?_eq_none_iff]
  constructor
  · intro h
    induction xs generalizing ys with
    | nil => cases h
    | cons x xs ih =>
      cases ys with
      | nil => cases h
      | cons y ys =>
        rw [mergeInner_cons] at h
        cases hd : x.merge? y with
        | none => exact ⟨0, hd⟩
        | some d =>
          rw [hd, Option.bind_some, Option.map_eq_none_iff] at h
          obtain ⟨k, hk⟩ := ih h
          exact ⟨k + 1, hk⟩
  · rintro ⟨k, hk⟩
    cases h : mergeInner xs ys with
    | none => rfl
    | some ds =>
      rw [(mergeInner_eq_some_iff.mp h).2 k] at hk
      cases hk

theorem broadcast?_eq_some_iff :
    a.broadcast? b = some r ↔ r.rank = max a.rank b.rank ∧
      ∀ k, (a.fromEnd k).merge? (b.fromEnd k) = some (r.fromEnd k) := by
  have hdims : a.broadcast? b = some r ↔
      mergeInner a.dims.reverse b.dims.reverse = some r.dims.reverse := by
    rw [broadcast?, Option.map_eq_some_iff]
    constructor
    · rintro ⟨ds, hds, rfl⟩
      rw [hds, List.reverse_reverse]
    · intro h
      exact ⟨_, h, by rw [List.reverse_reverse]⟩
  rw [hdims, mergeInner_eq_some_iff, List.length_reverse, List.length_reverse, List.length_reverse]
  rfl

/-- Shapes go together unless two dimensions at the same place do not. -/
theorem broadcast?_eq_none_iff :
    a.broadcast? b = none ↔ ∃ k, (a.fromEnd k).Clash (b.fromEnd k) := by
  rw [broadcast?, Option.map_eq_none_iff, mergeInner_eq_none_iff]
  rfl

/-! ## Broadcasting as a least upper bound -/

theorem isLUB_of_broadcast? (h : a.broadcast? b = some r) : IsLUB {a, b} r := by
  obtain ⟨hrank, hplaces⟩ := broadcast?_eq_some_iff.mp h
  have hplace : ∀ k, IsLUB {a.fromEnd k, b.fromEnd k} (r.fromEnd k) :=
    fun k => Dim.isLUB_of_merge? (hplaces k)
  constructor
  · rintro s (rfl | rfl)
    · exact ⟨by omega, fun k => (hplace k).1 (.inl rfl)⟩
    · exact ⟨by omega, fun k => (hplace k).1 (.inr rfl)⟩
  · intro s hs
    have ha : a ≤ s := hs (.inl rfl)
    have hb : b ≤ s := hs (.inr rfl)
    refine ⟨by have := ha.1; have := hb.1; omega, fun k => (hplace k).2 ?_⟩
    rintro d (rfl | rfl)
    · exact ha.2 k
    · exact hb.2 k

/-- Shapes that have an upper bound broadcast. -/
theorem exists_broadcast? (ha : a ≤ c) (hb : b ≤ c) : ∃ r, a.broadcast? b = some r := by
  cases h : a.broadcast? b with
  | some r => exact ⟨r, rfl⟩
  | none =>
    obtain ⟨k, hk⟩ := broadcast?_eq_none_iff.mp h
    exact absurd ⟨ha.2 k, hb.2 k⟩ hk.not_bounded

theorem broadcast?_eq_some_iff_isLUB : a.broadcast? b = some r ↔ IsLUB {a, b} r := by
  constructor
  · exact isLUB_of_broadcast?
  · intro h
    obtain ⟨r', hr'⟩ := exists_broadcast? (h.1 (.inl rfl)) (h.1 (.inr rfl))
    rw [hr', (isLUB_of_broadcast? hr').unique h]

/-! ## Laws -/

theorem broadcast?_comm (a b : Shape) : a.broadcast? b = b.broadcast? a := by
  ext r
  rw [broadcast?_eq_some_iff_isLUB, broadcast?_eq_some_iff_isLUB, Set.pair_comm]

@[simp] theorem broadcast?_self (a : Shape) : a.broadcast? a = some a := by
  rw [broadcast?_eq_some_iff_isLUB, Set.pair_eq_singleton]
  exact isLUB_singleton

@[simp] theorem broadcast?_scalar (a : Shape) : a.broadcast? .scalar = some a := by
  rw [broadcast?_eq_some_iff_isLUB]
  refine ⟨?_, fun s hs => hs (.inl rfl)⟩
  rintro s (rfl | rfl)
  · exact le_refl s
  · exact scalar_le a

/-- What two shapes broadcast to has the same upper bounds, also among further shapes. -/
theorem upperBounds_insert_of_broadcast? (h : a.broadcast? b = some r) (s : Set Shape) :
    upperBounds (insert r s) = upperBounds (insert a (insert b s)) := by
  rw [upperBounds_insert, ← (isLUB_of_broadcast? h).upperBounds_eq, upperBounds_insert,
    upperBounds_insert, upperBounds_insert, upperBounds_singleton, Set.inter_assoc]

/-- Broadcasting three shapes, the first two first, is their least upper bound. -/
theorem bind_broadcast?_eq_some_iff :
    ((a.broadcast? b).bind fun ab => ab.broadcast? c) = some r ↔ IsLUB {a, b, c} r := by
  rw [Option.bind_eq_some_iff]
  constructor
  · rintro ⟨ab, hab, hr⟩
    have hlub : IsLUB {ab, c} r := isLUB_of_broadcast? hr
    rwa [IsLUB, upperBounds_insert_of_broadcast? hab] at hlub
  · intro h
    obtain ⟨ab, hab⟩ := exists_broadcast? (h.1 (.inl rfl)) (h.1 (.inr (.inl rfl)))
    refine ⟨ab, hab, broadcast?_eq_some_iff_isLUB.mpr ?_⟩
    rwa [IsLUB, upperBounds_insert_of_broadcast? hab]

theorem broadcast?_assoc (a b c : Shape) :
    ((a.broadcast? b).bind fun ab => ab.broadcast? c) =
      (b.broadcast? c).bind fun bc => a.broadcast? bc := by
  ext r
  have hright : (b.broadcast? c).bind (fun bc => a.broadcast? bc) =
      (b.broadcast? c).bind fun bc => bc.broadcast? a := by
    simp only [broadcast?_comm a]
  have hset : ({a, b, c} : Set Shape) = {b, c, a} := by
    rw [Set.insert_comm a b, Set.pair_comm a c]
  rw [hright, bind_broadcast?_eq_some_iff, bind_broadcast?_eq_some_iff, hset]

end Shape

end TensorIR
