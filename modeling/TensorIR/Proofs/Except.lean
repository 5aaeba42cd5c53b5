/-!
# Computations that may fail

Going through a list with a step that may fail succeeds when every step does, and then has collected
what the steps answered, in order. It fails as some step fails, so what all the errors of the steps
have in common is true of its error (`FailsWith`).
-/

set_option autoImplicit false

namespace TensorIR

theorem bind_eq_ok_iff {ε α β : Type} {x : Except ε α} {f : α → Except ε β} {b : β} :
    (x >>= f) = .ok b ↔ ∃ a, x = .ok a ∧ f a = .ok b := by
  cases x <;> simp [bind, Except.bind]

theorem map_eq_ok_iff {ε α β : Type} {x : Except ε α} {f : α → β} {b : β} :
    x.map f = .ok b ↔ ∃ a, x = .ok a ∧ f a = b := by
  cases x <;> simp [Except.map]

theorem mapM_eq_ok_iff {ε α β : Type} {f : α → Except ε β} {xs : List α} {ys : List β} :
    xs.mapM f = .ok ys ↔ xs.map f = ys.map .ok := by
  induction xs generalizing ys with
  | nil => cases ys <;> simp [pure, Except.pure]
  | cons x xs ih =>
    rw [List.mapM_cons, List.map_cons]
    cases hx : f x with
    | error err => cases ys <;> simp [bind, Except.bind]
    | ok y =>
      cases ys with
      | nil => cases xs.mapM f <;> simp [bind, Except.bind, pure, Except.pure]
      | cons y' ys =>
        rw [List.map_cons, List.cons.injEq, ← ih]
        cases xs.mapM f <;> simp [bind, Except.bind, pure, Except.pure]

/-- If every step succeeds, there is a list of the answers. -/
theorem exists_map_eq_map_ok {ε α β : Type} {f : α → Except ε β} {xs : List α}
    (h : ∀ x ∈ xs, ∃ y, f x = .ok y) : ∃ ys : List β, xs.map f = ys.map .ok := by
  induction xs with
  | nil => exact ⟨[], rfl⟩
  | cons x xs ih =>
    obtain ⟨⟨y, hy⟩, hxs⟩ := List.forall_mem_cons.mp h
    obtain ⟨ys, hys⟩ := ih hxs
    exact ⟨y :: ys, by rw [List.map_cons, List.map_cons, hy, hys]⟩

/-! ## How a computation fails -/

/-- If the computation fails, this is true of its error. -/
def FailsWith {ε α : Type} (fault : ε → Prop) (outcome : Except ε α) : Prop :=
  ∀ err, outcome = .error err → fault err

namespace FailsWith

variable {ε α β : Type} {fault : ε → Prop} {outcome : Except ε α}

theorem ok (a : α) : FailsWith fault (.ok a) := by
  intro err herr
  cases herr

theorem error {err : ε} (h : fault err) : FailsWith fault (.error err : Except ε α) := by
  rintro _ ⟨⟩
  exact h

theorem bind {f : α → Except ε β} (h : FailsWith fault outcome)
    (hf : ∀ a, outcome = .ok a → FailsWith fault (f a)) : FailsWith fault (outcome >>= f) := by
  cases outcome with
  | ok a => exact hf a rfl
  | error err => exact error (h err rfl)

theorem mapM {f : α → Except ε β} {as : List α}
    (hf : ∀ a ∈ as, FailsWith fault (f a)) : FailsWith fault (as.mapM f) := by
  induction as with
  | nil => exact ok []
  | cons a as ih =>
    obtain ⟨ha, has⟩ := List.forall_mem_cons.mp hf
    rw [List.mapM_cons]
    exact ha.bind fun _ _ => (ih has).bind fun _ _ => ok _

end FailsWith

end TensorIR
