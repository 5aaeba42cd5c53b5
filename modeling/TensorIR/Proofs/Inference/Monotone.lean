import TensorIR.Inference.Builtin
import TensorIR.Proofs.Shape.Instances

/-!
# The built-in rules know no more than their operands tell

Each rule answers monotonely: if it succeeds on some operands, it succeeds on any operands these are
instances of, and its first answer is an instance of its second (`infer_mono`). Failure is covered
by this too. A rule that refused shapes with dynamic dimensions although it accepts some instance
of them would not be monotone.
-/

set_option autoImplicit false

namespace TensorIR.ShapeRule

open Shape (InstanceOf)

theorem broadcastAll_mono {first first' out : Shape} {others others' : List Shape}
    (hfirst : first.InstanceOf first') (hothers : List.Forall₂ InstanceOf others others')
    (h : broadcastAll first others = .ok out) :
    ∃ out', broadcastAll first' others' = .ok out' ∧ out.InstanceOf out' := by
  induction hothers generalizing first first' with
  | nil =>
    obtain rfl := Except.ok.inj h
    exact ⟨first', rfl, hfirst⟩
  | cons hs _ ih =>
    unfold broadcastAll at h
    split at h
    next merged hmerged =>
      obtain ⟨merged', hmerged', hinstance⟩ := Shape.broadcast?_mono hfirst hs hmerged
      obtain ⟨out', hout', hout⟩ := ih hinstance h
      exact ⟨out', by rw [broadcastAll, hmerged']; exact hout', hout⟩
    next => cases h

theorem contracts_mono {a b a' b' : Dim} (ha : a.InstanceOf a') (hb : b.InstanceOf b')
    (h : contracts a b = true) : contracts a' b' = true := by
  by_cases ha' : a' = .dynamic
  · simp [contracts, ha']
  · by_cases hb' : b' = .dynamic
    · simp [contracts, hb']
    · rwa [← ha.eq ha', ← hb.eq hb']

/-- A product that goes through has two dimensions on either side, the inner ones fit, and the outer
dimensions broadcast. -/
theorem product_eq_ok_iff {a b out : Shape} :
    product a b = .ok out ↔ ∃ ka m batchA n kb batchB batch,
      a.dims.reverse = ka :: m :: batchA ∧ b.dims.reverse = n :: kb :: batchB ∧
      contracts ka kb = true ∧ Shape.mergeInner batchA batchB = some batch ∧
      out = ⟨(n :: m :: batch).reverse⟩ := by
  unfold product
  constructor
  · intro h
    split at h
    next ka m batchA n kb batchB hA hB =>
      split at h
      next hfits =>
        split at h
        next batch hbatch =>
          exact ⟨ka, m, batchA, n, kb, batchB, batch, hA, hB, hfits, hbatch,
            (Except.ok.inj h).symm⟩
        next => cases h
      next => cases h
    next => cases h
    next => cases h
  · intro hx
    obtain ⟨ka, m, batchA, n, kb, batchB, batch, hA, hB, hfits, hbatch, rfl⟩ := hx
    simp only [hA, hB, hfits, hbatch, if_true]

theorem product_mono {a b a' b' out : Shape} (ha : a.InstanceOf a') (hb : b.InstanceOf b')
    (h : product a b = .ok out) : ∃ out', product a' b' = .ok out' ∧ out.InstanceOf out' := by
  obtain ⟨ka, m, batchA, n, kb, batchB, batch, hA, hB, hfits, hbatch, rfl⟩ :=
    product_eq_ok_iff.mp h
  have hrevA := List.rel_reverse ha
  have hrevB := List.rel_reverse hb
  rw [hA] at hrevA
  rw [hB] at hrevB
  obtain ⟨ka', _, hka, hrevA, hA'⟩ := List.forall₂_cons_left_iff.mp hrevA
  obtain ⟨m', batchA', hm, hbatchA, rfl⟩ := List.forall₂_cons_left_iff.mp hrevA
  obtain ⟨n', _, hn, hrevB, hB'⟩ := List.forall₂_cons_left_iff.mp hrevB
  obtain ⟨kb', batchB', hkb, hbatchB, rfl⟩ := List.forall₂_cons_left_iff.mp hrevB
  obtain ⟨batch', hbatch', hbatches⟩ := Shape.mergeInner_mono hbatchA hbatchB hbatch
  refine ⟨⟨(n' :: m' :: batch').reverse⟩, product_eq_ok_iff.mpr ?_, ?_⟩
  · exact ⟨ka', m', batchA', n', kb', batchB', batch', hA', hB', contracts_mono hka hkb hfits,
      hbatch', rfl⟩
  · exact List.rel_reverse (.cons hn (.cons hm hbatches))

/-! ## When a rule answers, and what -/

variable {operands out : List Shape}

theorem infer_passThrough_iff : passThrough.infer operands = .ok (.success out) ↔
    ∃ shape rest, operands = shape :: rest ∧ out = [shape] := by
  cases operands with
  | nil => simp [infer]
  | cons shape rest => simp [infer, eq_comm]

theorem infer_broadcast_iff {inputs : Nat} :
    (broadcast inputs).infer operands = .ok (.success out) ↔
      operands.length = inputs ∧ ∃ first others merged, operands = first :: others ∧
        broadcastAll first others = .ok merged ∧ out = [merged] := by
  by_cases hcount : operands.length = inputs
  · cases operands with
    | nil => simp [infer, hcount]
    | cons first others =>
      cases hmerged : broadcastAll first others <;>
        simp [infer, hcount, hmerged, Except.map, eq_comm]
  · simp [infer, hcount]

theorem infer_innermost_iff {dim : Dim} :
    (innermost dim).infer operands = .ok (.success out) ↔ ∃ shape : Shape, operands = [shape] ∧
      shape.rank ≠ 0 ∧ out = [⟨shape.dims.set (shape.rank - 1) dim⟩] := by
  match operands with
  | [] => simp [infer]
  | [shape] => by_cases h : shape.rank = 0 <;> simp [infer, h, @eq_comm _ out]
  | _ :: _ :: _ => simp [infer]

theorem infer_reduce_iff {axis : Nat} :
    (reduce axis).infer operands = .ok (.success out) ↔ ∃ shape : Shape, operands = [shape] ∧
      axis < shape.rank ∧ out = [⟨shape.dims.set axis .one⟩] := by
  match operands with
  | [] => simp [infer]
  | [shape] =>
    by_cases h : axis < shape.rank
    · simp [infer, h, Nat.not_le.mpr h, @eq_comm _ out]
    · simp [infer, h, Nat.not_lt.mp h]
  | _ :: _ :: _ => simp [infer]

theorem infer_matmul_iff : matmul.infer operands = .ok (.success out) ↔
    ∃ a b merged, operands = [a, b] ∧ product a b = .ok merged ∧ out = [merged] := by
  match operands with
  | [] | [_] | _ :: _ :: _ :: _ => simp [infer]
  | [a, b] => cases h : product a b <;> simp [infer, h, Except.map, eq_comm]

/-! ## All rules -/

/-- What a rule answers to operands covers what it answers to their instances. -/
theorem infer_mono {rule : ShapeRule} {operands' : List Shape}
    (h : List.Forall₂ InstanceOf operands operands')
    (hok : rule.infer operands = .ok (.success out)) :
    ∃ out', rule.infer operands' = .ok (.success out') ∧ List.Forall₂ InstanceOf out out' := by
  cases rule with
  | passThrough =>
    obtain ⟨shape, rest, rfl, rfl⟩ := infer_passThrough_iff.mp hok
    obtain ⟨shape', rest', hshape, -, rfl⟩ := List.forall₂_cons_left_iff.mp h
    exact ⟨[shape'], rfl, .cons hshape .nil⟩
  | broadcast inputs =>
    obtain ⟨hcount, first, others, merged, rfl, hmerged, rfl⟩ := infer_broadcast_iff.mp hok
    obtain ⟨first', others', hfirst, hothers, rfl⟩ := List.forall₂_cons_left_iff.mp h
    obtain ⟨merged', hmerged', hinstance⟩ := broadcastAll_mono hfirst hothers hmerged
    exact ⟨[merged'], infer_broadcast_iff.mpr
      ⟨h.length_eq.symm.trans hcount, first', others', merged', rfl, hmerged', rfl⟩,
      .cons hinstance .nil⟩
  | nothing =>
    cases hok
    exact ⟨[], rfl, .nil⟩
  | singleElement =>
    cases hok
    exact ⟨_, rfl, Shape.forall₂_instanceOf_refl _⟩
  | declared shape =>
    cases hok
    exact ⟨_, rfl, Shape.forall₂_instanceOf_refl _⟩
  | innermost dim =>
    obtain ⟨shape, rfl, hrank, rfl⟩ := infer_innermost_iff.mp hok
    obtain ⟨shape', _, hshape, hnone, rfl⟩ := List.forall₂_cons_left_iff.mp h
    obtain rfl := List.forall₂_nil_left_iff.mp hnone
    rw [hshape.rank] at hrank ⊢
    exact ⟨_, infer_innermost_iff.mpr ⟨shape', rfl, hrank, rfl⟩, .cons (hshape.set _ dim) .nil⟩
  | reduce axis =>
    obtain ⟨shape, rfl, haxis, rfl⟩ := infer_reduce_iff.mp hok
    obtain ⟨shape', _, hshape, hnone, rfl⟩ := List.forall₂_cons_left_iff.mp h
    obtain rfl := List.forall₂_nil_left_iff.mp hnone
    rw [hshape.rank] at haxis
    exact ⟨_, infer_reduce_iff.mpr ⟨shape', rfl, haxis, rfl⟩, .cons (hshape.set axis .one) .nil⟩
  | matmul =>
    obtain ⟨a, b, merged, rfl, hmerged, rfl⟩ := infer_matmul_iff.mp hok
    obtain ⟨a', _, ha, hrest, rfl⟩ := List.forall₂_cons_left_iff.mp h
    obtain ⟨b', _, hb, hnone, rfl⟩ := List.forall₂_cons_left_iff.mp hrest
    obtain rfl := List.forall₂_nil_left_iff.mp hnone
    obtain ⟨merged', hmerged', hinstance⟩ := product_mono ha hb hmerged
    exact ⟨[merged'], infer_matmul_iff.mpr ⟨a', b', merged', rfl, hmerged', rfl⟩,
      .cons hinstance .nil⟩

end TensorIR.ShapeRule
