import Mathlib.Data.List.Forall2
import TensorIR.Shape

/-!
# What a dynamic dimension stands for

A dynamic dimension says nothing, so every dimension is an instance of it; a static one has no
instance but itself. Shapes of one rank compare dimension by dimension. This is the order in which
shape inference is sound: what is found for shapes with dynamic dimensions covers what is found for
their instances.

Broadcasting respects it. Where the instances go together, so do the shapes they are instances of,
and the result of the first is an instance of the result of the second. It comes down to one fact
about dimensions: a static dimension other than `1` decides what a merge results in, whatever the
other side is (`merge?_eq_left`, `merge?_eq_right`).
-/

set_option autoImplicit false

namespace TensorIR

/-! ## Dimensions -/

namespace Dim

/-- The first dimension is one of those that the second stands for. -/
def InstanceOf (c s : Dim) : Prop := s = .dynamic ∨ s = c

instance (c s : Dim) : Decidable (InstanceOf c s) := inferInstanceAs (Decidable (_ ∨ _))

theorem InstanceOf.refl (d : Dim) : InstanceOf d d := .inr rfl

theorem instanceOf_dynamic (d : Dim) : InstanceOf d .dynamic := .inl rfl

theorem InstanceOf.eq {c s : Dim} (h : InstanceOf c s) (hs : s ≠ .dynamic) : c = s :=
  (h.resolve_left hs).symm

@[simp] theorem merge?_self (a : Dim) : merge? a a = some a := by simp [merge?]

@[simp] theorem merge?_one (a : Dim) : merge? a .one = some a := by simp [merge?]

@[simp] theorem one_merge? (b : Dim) : merge? .one b = some b := by
  by_cases h : b = .one <;> simp [merge?, h, eq_comm]

theorem dynamic_merge? {b : Dim} (h : b ≠ .one) : merge? .dynamic b = some b := by
  cases b with
  | dynamic => simp
  | static size => simp [merge?, h]

theorem merge?_dynamic {a : Dim} (h : a ≠ .one) : merge? a .dynamic = some a := by
  cases a with
  | dynamic => simp
  | static size =>
    have hne : Dim.dynamic ≠ .one := by simp [one]
    simp [merge?, h, hne]

theorem merge?_eq_left {a b d : Dim} (h : merge? a b = some d) (hone : a ≠ .one)
    (hdynamic : a ≠ .dynamic) : d = a := by
  unfold merge? at h
  rw [if_neg (not_or.mpr ⟨hone, hdynamic⟩)] at h
  split at h
  · exact (Option.some.inj h).symm
  · split at h
    · exact (Option.some.inj h).symm
    · cases h

theorem merge?_eq_right {a b d : Dim} (h : merge? a b = some d) (hone : b ≠ .one)
    (hdynamic : b ≠ .dynamic) : d = b := by
  unfold merge? at h
  rw [if_neg hdynamic] at h
  split at h
  next heq =>
    obtain rfl := Option.some.inj h
    exact heq.resolve_right hone
  next =>
    split at h
    · exact (Option.some.inj h).symm
    · cases h

/-- A merge that goes through still does so when less is known about the dimensions. -/
theorem merge?_mono {a b a' b' d : Dim} (ha : InstanceOf a a') (hb : InstanceOf b b')
    (h : merge? a b = some d) : ∃ d', merge? a' b' = some d' ∧ InstanceOf d d' := by
  by_cases ha' : a' = .dynamic
  · subst ha'
    by_cases hone : b' = .one
    · exact ⟨.dynamic, by rw [hone, merge?_one], instanceOf_dynamic d⟩
    · refine ⟨b', dynamic_merge? hone, ?_⟩
      by_cases hb' : b' = .dynamic
      · exact .inl hb'
      · obtain rfl := hb.eq hb'
        exact .inr (merge?_eq_right h hone hb').symm
  · obtain rfl := ha.eq ha'
    by_cases hb' : b' = .dynamic
    · subst hb'
      by_cases hone : a = .one
      · exact ⟨.dynamic, by rw [hone, one_merge?], instanceOf_dynamic d⟩
      · exact ⟨a, merge?_dynamic hone, .inr (merge?_eq_left h hone ha').symm⟩
    · obtain rfl := hb.eq hb'
      exact ⟨d, h, .refl d⟩

end Dim

/-! ## Shapes -/

namespace Shape

/-- The shapes have the same rank, and the first is an instance of the second in every dimension. -/
def InstanceOf (c s : Shape) : Prop := List.Forall₂ Dim.InstanceOf c.dims s.dims

instance (c s : Shape) : Decidable (InstanceOf c s) :=
  inferInstanceAs (Decidable (List.Forall₂ _ _ _))

theorem InstanceOf.refl (s : Shape) : InstanceOf s s :=
  List.forall₂_same.mpr fun d _ => .refl d

theorem forall₂_instanceOf_refl (shapes : List Shape) : List.Forall₂ InstanceOf shapes shapes :=
  List.forall₂_same.mpr fun s _ => .refl s

theorem InstanceOf.rank {c s : Shape} (h : InstanceOf c s) : c.rank = s.rank := h.length_eq

/-- Shapes compare as before when one of their dimensions is overwritten in both. -/
theorem InstanceOf.set {c s : Shape} (h : InstanceOf c s) (i : Nat) (d : Dim) :
    InstanceOf ⟨c.dims.set i d⟩ ⟨s.dims.set i d⟩ := by
  obtain ⟨cs⟩ := c
  obtain ⟨ss⟩ := s
  unfold InstanceOf at h ⊢
  dsimp only at h ⊢
  induction h generalizing i with
  | nil => exact .nil
  | cons hd hds ih =>
    cases i with
    | zero => exact .cons (.refl d) hds
    | succ i => exact .cons hd (ih i)

theorem mergeInner_mono {as bs as' bs' ds : List Dim} (ha : List.Forall₂ Dim.InstanceOf as as')
    (hb : List.Forall₂ Dim.InstanceOf bs bs') (h : mergeInner as bs = some ds) :
    ∃ ds', mergeInner as' bs' = some ds' ∧ List.Forall₂ Dim.InstanceOf ds ds' := by
  induction ha generalizing bs bs' ds with
  | nil =>
    cases Option.some.inj h
    exact ⟨bs', rfl, hb⟩
  | @cons a a' as as' ha has ih =>
    cases hb with
    | nil =>
      cases Option.some.inj h
      exact ⟨a' :: as', rfl, .cons ha has⟩
    | @cons b b' bs bs' hb hbs =>
      -- The innermost dimensions have gone together, and so have the others.
      unfold mergeInner at h
      split at h
      next d rest hd hrest =>
        obtain rfl := Option.some.inj h
        obtain ⟨d', hd', hdd'⟩ := Dim.merge?_mono ha hb hd
        obtain ⟨rest', hrest', hrests⟩ := ih hbs hrest
        exact ⟨d' :: rest', by rw [mergeInner, hd', hrest'], .cons hdd' hrests⟩
      next => cases h

theorem broadcast?_mono {a b a' b' d : Shape} (ha : InstanceOf a a') (hb : InstanceOf b b')
    (h : broadcast? a b = some d) : ∃ d', broadcast? a' b' = some d' ∧ InstanceOf d d' := by
  obtain ⟨ds, hds, rfl⟩ := Option.map_eq_some_iff.mp h
  obtain ⟨ds', hds', hdims⟩ :=
    mergeInner_mono (List.rel_reverse ha) (List.rel_reverse hb) hds
  exact ⟨⟨ds'.reverse⟩, by rw [broadcast?, hds']; rfl, List.rel_reverse hdims⟩

end Shape

end TensorIR
