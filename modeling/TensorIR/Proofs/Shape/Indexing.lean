import TensorIR.Proofs.Shape.Joins

/-!
# Broadcasting by index

Broadcasting is defined along both shapes from the innermost dimension outwards, so no index occurs
in it. Here it is spelled out in place and with indices: the dimensions of the result are found one
after the other from the outermost one inwards, each by looking it up in both operands, and the
destination is written once all of them are there. Every look-up is checked. That none of them
misses, and that the destination then holds what it should, is one equation
(`Shape.broadcastInto?_eq`).
-/

set_option autoImplicit false

namespace TensorIR.Shape

/-- The dimension at an index counted from the end, the innermost one being at one. In front of the
outermost dimension there are ones. -/
def lookUp? (s : Shape) (index : Nat) : Option Dim :=
  if s.rank < index then some .one else s.dims[s.rank - index]?

/-- Merge the dimensions at the given indices of a shape of the given rank, up to the first two that
do not go together. There is no answer at all if an index is out of bounds. -/
def mergeAt? (dst src : Shape) (rank : Nat) : List Nat → Option (Option (List Dim))
  | [] => some (some [])
  | i :: is => do
    let a ← dst.lookUp? (rank - i)
    let b ← src.lookUp? (rank - i)
    match a.merge? b with
    | none => return none
    | some d => return (← mergeAt? dst src rank is).map (d :: ·)

/-- Broadcast a shape into a destination: whether this went through, and the destination after. -/
def broadcastInto? (dst src : Shape) : Option (Bool × Shape) :=
  let rank := max dst.rank src.rank
  (mergeAt? dst src rank (List.range rank)).map fun
    | some merged => (true, ⟨merged⟩)
    | none => (false, dst)

variable {dst src r : Shape} {rank : Nat}

theorem lookUp?_eq {s : Shape} {index : Nat} (h : 0 < index) :
    s.lookUp? index = some (s.fromEnd (index - 1)) := by
  unfold lookUp?
  split
  next hlt => rw [fromEnd_of_rank_le (Nat.le_sub_one_of_lt hlt)]
  next hle =>
    have hrank : s.dims.length = s.rank := rfl
    have hat : s.rank - index < s.dims.length := by omega
    have hback : index - 1 < s.dims.reverse.length := by rw [List.length_reverse]; omega
    rw [List.getElem?_eq_getElem hat, fromEnd, List.getD_eq_getElem _ _ hback,
      List.getElem_reverse]
    congr 2
    omega

/-- The dimension at an index of the result. -/
def mergedAt (dst src : Shape) (rank i : Nat) : Option Dim :=
  (dst.fromEnd (rank - i - 1)).merge? (src.fromEnd (rank - i - 1))

/-- Within the rank no look-up misses, and merging succeeds where all dimensions merge. -/
theorem mergeAt?_eq (dst src : Shape) {is : List Nat} (h : ∀ i ∈ is, i < rank) : ∃ merged,
    mergeAt? dst src rank is = some merged ∧
      ∀ ds, merged = some ds ↔ is.map (mergedAt dst src rank) = ds.map some := by
  induction is with
  | nil => exact ⟨some [], rfl, fun ds => by cases ds <;> simp⟩
  | cons i is ih =>
    obtain ⟨hi, his⟩ := List.forall_mem_cons.mp h
    obtain ⟨merged, hmerged, hiff⟩ := ih his
    have hindex : 0 < rank - i := by omega
    rw [mergeAt?, lookUp?_eq hindex, lookUp?_eq hindex]
    show ∃ merged, (match mergedAt dst src rank i with
      | none => some none
      | some d => (mergeAt? dst src rank is).bind fun rest => some (rest.map (d :: ·))) =
        some merged ∧ _
    cases hd : mergedAt dst src rank i with
    | none => exact ⟨none, rfl, fun ds => by cases ds <;> simp [hd]⟩
    | some d =>
      refine ⟨merged.map (d :: ·), by rw [hmerged]; rfl, fun ds => ?_⟩
      rw [Option.map_eq_some_iff, List.map_cons, hd]
      constructor
      · rintro ⟨rest, hrest, rfl⟩
        rw [List.map_cons, (hiff rest).mp hrest]
      · intro hmap
        obtain ⟨d', rest, rfl, hd', hrest⟩ := List.map_eq_cons_iff.mp hmap.symm
        obtain rfl := Option.some.inj hd'
        exact ⟨rest, (hiff rest).mpr hrest.symm, rfl⟩

/-- The dimensions of a shape, read from the outermost one inwards. -/
theorem dims_eq_map (s : Shape) :
    s.dims = (List.range s.rank).map fun i => s.fromEnd (s.rank - i - 1) := by
  apply List.ext_getElem?
  intro i
  by_cases hi : i < s.rank
  · have hlook : s.lookUp? (s.rank - i) = s.dims[i]? := by
      rw [lookUp?, if_neg (by omega), Nat.sub_sub_self hi.le]
    rw [← hlook, lookUp?_eq (by omega)]
    simp [hi]
  · have hlength : s.dims.length ≤ i := Nat.not_lt.mp hi
    simp [hi, hlength]

/-- The dimensions of the result, found by index. -/
theorem broadcast?_eq_some_iff_map_mergedAt (hrank : rank = max dst.rank src.rank) :
    dst.broadcast? src = some r ↔
      (List.range rank).map (mergedAt dst src rank) = r.dims.map some := by
  rw [broadcast?_eq_some_iff, ← hrank]
  constructor
  · rintro ⟨heq, hplaces⟩
    rw [dims_eq_map, heq, List.map_map]
    exact List.map_congr_left fun i _ => hplaces _
  · intro hmap
    have heq : r.rank = rank := by simpa [Shape.rank] using (congrArg List.length hmap).symm
    refine ⟨heq, fun k => ?_⟩
    by_cases hk : k < rank
    · rw [dims_eq_map, heq, List.map_map, List.map_inj_left] at hmap
      have hat := hmap (rank - k - 1) (List.mem_range.mpr (by omega))
      have hback : rank - (rank - k - 1) - 1 = k := by omega
      rwa [mergedAt, Function.comp, hback] at hat
    · rw [fromEnd_of_rank_le (s := dst) (by omega), fromEnd_of_rank_le (s := src) (by omega),
        fromEnd_of_rank_le (s := r) (by omega), Dim.merge?_self]

/-- Broadcasting in place never looks up a dimension that is not there. It leaves the destination
as it was if the shapes do not go together. -/
theorem broadcastInto?_eq (dst src : Shape) : dst.broadcastInto? src =
    some (match dst.broadcast? src with
      | some merged => (true, merged)
      | none => (false, dst)) := by
  have hin : ∀ i ∈ List.range (max dst.rank src.rank), i < max dst.rank src.rank :=
    fun i hi => List.mem_range.mp hi
  obtain ⟨merged, hmerged, hiff⟩ := mergeAt?_eq dst src hin
  rw [broadcastInto?, hmerged, Option.map_some]
  cases hr : dst.broadcast? src with
  | some r =>
    rw [(hiff r.dims).mpr ((broadcast?_eq_some_iff_map_mergedAt rfl).mp hr)]
  | none =>
    cases merged with
    | none => rfl
    | some ds =>
      rw [(broadcast?_eq_some_iff_map_mergedAt (r := ⟨ds⟩) rfl).mpr ((hiff ds).mp rfl)] at hr
      cases hr

end TensorIR.Shape
