import TensorIR.Proofs.Inference.Monotone
import TensorIR.Proofs.Shape.Joins

/-!
# Where the dimensions of an answer come from

No rule makes up a dimension. Each one in an answer is a dimension of some operand, or it is one
that the rule brings with it: a dimension it was told, or the one that a single element has
(`mem_dims_infer`). Broadcasting brings nothing of its own, since a merge of two dimensions is one
of them.
-/

set_option autoImplicit false

namespace TensorIR

/-- Some shape of the list has the dimension. -/
def Dim.Among (d : Dim) (shapes : List Shape) : Prop := ∃ shape ∈ shapes, d ∈ shape.dims

namespace Shape

variable {d : Dim}

theorem mem_of_mergeInner {xs ys ds : List Dim} (h : mergeInner xs ys = some ds) (hd : d ∈ ds) :
    d ∈ xs ∨ d ∈ ys := by
  induction xs generalizing ys ds with
  | nil =>
    obtain rfl := Option.some.inj h
    exact .inr hd
  | cons x xs ih =>
    cases ys with
    | nil =>
      obtain rfl := Option.some.inj h
      exact .inl hd
    | cons y ys =>
      rw [mergeInner_cons, Option.bind_eq_some_iff] at h
      obtain ⟨merged, hmerged, h⟩ := h
      obtain ⟨rest, hrest, rfl⟩ := Option.map_eq_some_iff.mp h
      rcases List.mem_cons.mp hd with rfl | hd
      · rcases Dim.eq_or_eq_of_merge? hmerged with rfl | rfl
        · exact .inl List.mem_cons_self
        · exact .inr List.mem_cons_self
      · exact (ih hrest hd).imp (List.mem_cons_of_mem x) (List.mem_cons_of_mem y)

theorem mem_of_broadcast? {a b c : Shape} (h : a.broadcast? b = some c) (hd : d ∈ c.dims) :
    d ∈ a.dims ∨ d ∈ b.dims := by
  obtain ⟨ds, hds, rfl⟩ := Option.map_eq_some_iff.mp h
  exact (mem_of_mergeInner hds (List.mem_reverse.mp hd)).imp List.mem_reverse.mp List.mem_reverse.mp

end Shape

namespace ShapeRule

variable {d : Dim} {operands out : List Shape}

/-- The rule brings the dimension with it. -/
def Brings : ShapeRule → Dim → Prop
  | .declared shape, d => d ∈ shape.dims
  | .innermost dim, d => d = dim
  | .singleElement, d | .reduce _, d => d = .one
  | .passThrough, _ | .broadcast _, _ | .nothing, _ | .matmul, _ => False

theorem among_of_broadcastAll {first merged : Shape} {others : List Shape}
    (h : broadcastAll first others = .ok merged) (hd : d ∈ merged.dims) :
    d.Among (first :: others) := by
  induction others generalizing first with
  | nil =>
    obtain rfl := Except.ok.inj h
    exact ⟨first, List.mem_cons_self, hd⟩
  | cons next others ih =>
    unfold broadcastAll at h
    split at h
    next both hboth =>
      obtain ⟨shape, hshape, hd⟩ := ih h
      rcases List.mem_cons.mp hshape with rfl | hshape
      · rcases Shape.mem_of_broadcast? hboth hd with hd | hd
        · exact ⟨first, List.mem_cons_self, hd⟩
        · exact ⟨next, List.mem_cons_of_mem _ List.mem_cons_self, hd⟩
      · exact ⟨shape, List.mem_cons_of_mem _ (List.mem_cons_of_mem _ hshape), hd⟩
    next => cases h

/-- Rows come from one operand and columns from the other, outer dimensions from either. -/
theorem among_of_product {a b merged : Shape} (h : product a b = .ok merged)
    (hd : d ∈ merged.dims) : d.Among [a, b] := by
  obtain ⟨ka, m, batchA, n, kb, batchB, batch, hA, hB, -, hbatch, rfl⟩ := product_eq_ok_iff.mp h
  have hleft : ∀ x ∈ m :: batchA, x ∈ a.dims := fun x hx =>
    List.mem_reverse.mp (hA ▸ List.mem_cons_of_mem ka hx)
  have hright : ∀ x ∈ n :: kb :: batchB, x ∈ b.dims := fun x hx => List.mem_reverse.mp (hB ▸ hx)
  have hsource : d ∈ a.dims ∨ d ∈ b.dims := by
    rcases List.mem_cons.mp (List.mem_reverse.mp hd) with rfl | hd
    · exact .inr (hright d List.mem_cons_self)
    rcases List.mem_cons.mp hd with rfl | hd
    · exact .inl (hleft d List.mem_cons_self)
    · exact (Shape.mem_of_mergeInner hbatch hd).imp
        (fun hd => hleft d (List.mem_cons_of_mem m hd))
        fun hd => hright d (List.mem_cons_of_mem n (List.mem_cons_of_mem kb hd))
  rcases hsource with hd | hd
  · exact ⟨a, List.mem_cons_self, hd⟩
  · exact ⟨b, List.mem_cons_of_mem a List.mem_cons_self, hd⟩

/-- Each dimension of an answer is one that the rule brings, or one of an operand. One case for each
rule. -/
theorem mem_dims_infer {rule : ShapeRule} (h : rule.infer operands = .ok (.success out))
    (hd : d.Among out) : rule.Brings d ∨ d.Among operands := by
  obtain ⟨shape, hshape, hd⟩ := hd
  cases rule with
  | passThrough =>
    obtain ⟨first, rest, rfl, rfl⟩ := infer_passThrough_iff.mp h
    obtain rfl := List.mem_singleton.mp hshape
    exact .inr ⟨shape, List.mem_cons_self, hd⟩
  | broadcast inputs =>
    obtain ⟨-, first, others, merged, rfl, hmerged, rfl⟩ := infer_broadcast_iff.mp h
    obtain rfl := List.mem_singleton.mp hshape
    exact .inr (among_of_broadcastAll hmerged hd)
  | nothing =>
    cases h
    cases hshape
  | singleElement =>
    cases h
    obtain rfl := List.mem_singleton.mp hshape
    exact .inl (List.mem_singleton.mp hd)
  | declared declared =>
    cases h
    obtain rfl := List.mem_singleton.mp hshape
    exact .inl hd
  | innermost dim =>
    obtain ⟨operand, rfl, -, rfl⟩ := infer_innermost_iff.mp h
    obtain rfl := List.mem_singleton.mp hshape
    rcases List.mem_or_eq_of_mem_set hd with hd | rfl
    · exact .inr ⟨operand, List.mem_cons_self, hd⟩
    · exact .inl rfl
  | reduce axis =>
    obtain ⟨operand, rfl, -, rfl⟩ := infer_reduce_iff.mp h
    obtain rfl := List.mem_singleton.mp hshape
    rcases List.mem_or_eq_of_mem_set hd with hd | rfl
    · exact .inr ⟨operand, List.mem_cons_self, hd⟩
    · exact .inl rfl
  | matmul =>
    obtain ⟨a, b, merged, rfl, hmerged, rfl⟩ := infer_matmul_iff.mp h
    obtain rfl := List.mem_singleton.mp hshape
    exact .inr (among_of_product hmerged hd)

end ShapeRule

end TensorIR
