import Mathlib.Data.List.Forall2

/-!
# Lists in step

Two lists are in step if they are equally long and each item is related to the one at the same place
of the other list. What is known of the lists can then be told of the items, by place or by
membership.
-/

set_option autoImplicit false

namespace TensorIR

variable {α β γ δ ε : Type} {r s : α → β → Prop} {t : γ → δ → Prop} {xs : List α} {ys : List β}

theorem exists_left_of_forall₂ (h : List.Forall₂ r xs ys) {y : β} (hy : y ∈ ys) :
    ∃ x ∈ xs, r x y := by
  induction h with
  | nil => cases hy
  | @cons x _ _ _ hxy _ ih =>
    rcases List.mem_cons.mp hy with rfl | hy
    · exact ⟨x, List.mem_cons_self, hxy⟩
    · obtain ⟨x', hx', hr⟩ := ih hy
      exact ⟨x', List.mem_cons_of_mem _ hx', hr⟩

theorem exists_right_of_forall₂ (h : List.Forall₂ r xs ys) {x : α} (hx : x ∈ xs) :
    ∃ y ∈ ys, r x y :=
  exists_left_of_forall₂ h.flip hx

/-- What stands at a place is related to what stands there in the other list. -/
theorem getElem?_of_forall₂ (h : List.Forall₂ r xs ys) {i : Nat} {x : α} (hx : xs[i]? = some x) :
    ∃ y, ys[i]? = some y ∧ r x y := by
  induction h generalizing i with
  | nil => cases hx
  | cons hxy _ ih =>
    cases i with
    | zero =>
      obtain rfl := Option.some.inj hx
      exact ⟨_, rfl, hxy⟩
    | succ i => exact ih hx

theorem forall₂_imp_of_mem (h : List.Forall₂ r xs ys)
    (himp : ∀ x ∈ xs, ∀ y ∈ ys, r x y → s x y) : List.Forall₂ s xs ys := by
  induction h with
  | nil => exact .nil
  | cons hxy _ ih =>
    refine .cons (himp _ List.mem_cons_self _ List.mem_cons_self hxy) (ih fun x hx y hy => ?_)
    exact himp x (List.mem_cons_of_mem _ hx) y (List.mem_cons_of_mem _ hy)

/-- Computations over lists in step, all of which succeed, have results in step. -/
theorem forall₂_of_map_ok {f : α → Except ε γ} {g : β → Except ε δ} {as : List γ} {bs : List δ}
    (hxs : xs.map f = as.map .ok) (hys : ys.map g = bs.map .ok)
    (h : List.Forall₂ (fun x y => ∀ a b, f x = .ok a → g y = .ok b → t a b) xs ys) :
    List.Forall₂ t as bs := by
  induction h generalizing as bs with
  | nil =>
    obtain rfl := List.map_eq_nil_iff.mp hxs.symm
    obtain rfl := List.map_eq_nil_iff.mp hys.symm
    exact .nil
  | cons hxy _ ih =>
    obtain ⟨a, as, rfl, ha, has⟩ := List.map_eq_cons_iff.mp hxs.symm
    obtain ⟨b, bs, rfl, hb, hbs⟩ := List.map_eq_cons_iff.mp hys.symm
    exact .cons (hxy a b ha.symm hb.symm) (ih has.symm hbs.symm)

end TensorIR
