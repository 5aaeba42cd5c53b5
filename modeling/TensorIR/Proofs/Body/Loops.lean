import TensorIR.Proofs.Body.Tampering
import TensorIR.Proofs.Except
import TensorIR.Proofs.Expression.Loops

/-!
# Loops over a history

A list of loops with a repetition is refused where it would be attached, so no expression ever has
one, whatever else is done to it or to the body that it is in. The structural check asks every
expression all the same. It has other things to report, but never that a loop is listed twice.
-/

set_option autoImplicit false

namespace TensorIR

namespace Expression

variable {e : Expression}

/-- The expression was just made and nothing was done to it. -/
inductive Fresh : Expression → Prop
  | make {e : Expression} {node : Node} {inputs outputs : List ConnectorId}
    {user : Option Provider} (h : make node inputs outputs user = .ok e) : Fresh e
  | makeBoundary {e : Expression} {node : Node} {ordinal : Int}
    {inputs outputs : List ConnectorId} {user : Option Provider}
    (h : makeBoundary node ordinal inputs outputs user = .ok e) : Fresh e

theorem Fresh.loops (h : Fresh e) : e.loops = [] := by
  cases h with
  | make h => exact loops_of_make h
  | makeBoundary h =>
    unfold Expression.makeBoundary at h
    split at h
    · cases h
    · obtain ⟨made, hmade, rfl⟩ := map_eq_ok_iff.mp h
      have hloops : made.loops = [] := loops_of_make hmade
      exact hloops

/-- The expression after a change, or as it was if the change is refused. -/
def tried (e : Expression) (change : Edit) : Expression :=
  match change.apply e with
  | .ok e' => e'
  | .error _ => e

theorem retouched_tried (e : Expression) (change : Edit) : Retouched e (e.tried change) := by
  unfold tried
  split
  next e' h => exact change.retouched h
  next => exact .refl e

/-- The expression after changes, one after the other, of which any may be refused. -/
def triedAll (e : Expression) (changes : List Edit) : Expression := changes.foldl tried e

theorem retouched_triedAll (e : Expression) (changes : List Edit) :
    Retouched e (e.triedAll changes) := by
  induction changes generalizing e with
  | nil => exact .refl e
  | cons change changes ih => exact (e.retouched_tried change).trans (ih _)

/-- Whatever is tried on an expression, it lists no loop twice. -/
theorem Fresh.validate (h : Fresh e) (changes : List Edit) :
    (e.triedAll changes).validate = .ok () := by
  have hnodup : e.loops.Nodup := by
    rw [h.loops]
    exact List.nodup_nil
  exact validate_eq_ok_iff.mpr ((e.retouched_triedAll changes).loops hnodup)

end Expression

namespace Body

variable {b : Body} {id : ExprId} {e : Expression}

/-! ## What the structural check reports -/

/-- The error is not that a loop is listed twice. -/
def SparesLoops (err : IrError) : Prop :=
  ∀ violation, err = .violated violation → violation.invariant ≠ .uniqueLoopIds

theorem sparesLoops_of_not_violated {err : IrError} (h : ∀ violation, err ≠ .violated violation) :
    SparesLoops err := fun violation heq => absurd heq (h violation)

theorem sparesLoops_violated {violation : Violation} (h : violation.invariant ≠ .uniqueLoopIds) :
    SparesLoops (.violated violation) := by
  rintro _ ⟨⟩
  exact h

open FailsWith (ok error)

theorem failsWith_expr (b : Body) (id : ExprId) : FailsWith SparesLoops (b.expr id) := by
  unfold expr
  split
  · exact ok _
  · exact error (sparesLoops_of_not_violated (by simp))

theorem failsWith_connector (b : Body) (c : ConnectorId) :
    FailsWith SparesLoops (b.connector c) := by
  unfold connector
  split
  · exact ok _
  · exact error (sparesLoops_of_not_violated (by simp))

theorem failsWith_checkReads (b : Body) (id : ExprId) (pairs : List (ConnectorId × Nat)) :
    FailsWith SparesLoops (b.checkReads id pairs) := by
  induction pairs with
  | nil => exact ok _
  | cons p pairs ih =>
    refine (b.failsWith_connector p.1).bind fun k _ => ?_
    split
    · exact ih
    · exact error (sparesLoops_violated (by simp [Violation.invariant]))

theorem failsWith_checkSources (b : Body) (id : ExprId) (pairs : List (ConnectorId × Nat)) :
    FailsWith SparesLoops (b.checkSources id pairs) := by
  induction pairs with
  | nil => exact ok _
  | cons p pairs ih =>
    refine (b.failsWith_connector p.1).bind fun k _ => ?_
    dsimp only
    split
    · exact ih
    · exact error (sparesLoops_violated (by simp [Violation.invariant]))

theorem failsWith_checkReaders (b : Body) (c : ConnectorId) (slots : List Slot) :
    FailsWith SparesLoops (b.checkReaders c slots) := by
  induction slots with
  | nil => exact ok _
  | cons slot slots ih =>
    rw [checkReaders]
    split
    · exact ih
    · exact error (sparesLoops_violated (by simp [Violation.invariant]))

theorem failsWith_checkConnectors (b : Body) (entries : List (ConnectorId × Connector)) :
    FailsWith SparesLoops (b.checkConnectors entries) := by
  induction entries with
  | nil => exact ok _
  | cons p entries ih => exact (b.failsWith_checkReaders p.1 _).bind fun _ _ => ih

/-- Of an expression whose list is in order nothing is reported that is about loops. -/
theorem failsWith_checkScheduled (h : ∀ id e, b.expr id = .ok e → e.validate = .ok ())
    (ids : List ExprId) : FailsWith SparesLoops (b.checkScheduled ids) := by
  induction ids with
  | nil => exact ok _
  | cons id ids ih =>
    refine (b.failsWith_expr id).bind fun e he => ?_
    rw [h id e he]
    exact (b.failsWith_checkReads id _).bind fun _ _ =>
      (b.failsWith_checkSources id _).bind fun _ _ => ih

theorem Tampered.validate_expr (h : Tampered b) (he : b.expr id = .ok e) : e.validate = .ok () :=
  Expression.validate_eq_ok_iff.mpr (h.orderly.loops id e (expr_eq_ok_iff.mp he))

theorem Tampered.failsWith_validate (h : Tampered b) : FailsWith SparesLoops b.validate :=
  (failsWith_checkScheduled (fun _ _ he => h.validate_expr he) _).bind fun _ _ =>
    b.failsWith_checkConnectors _

/-! ## Lists of loops -/

open Expression (firstRepeated FirstRepeat Fresh)

/-- A list with a repetition is refused, for the loop that is repeated first, and leaves the body as
it was. -/
theorem editExpr_loops_of_not_nodup (he : b.exprs.get? id = some e) {loops : List Nat}
    (h : ¬ loops.Nodup) : ∃ i loop, loops[i]? = some loop ∧ FirstRepeat loops i ∧
      b.editExpr id (·.withLoops loops) = (.error (.duplicateLoopId loop), b) := by
  cases hfound : e.withLoops loops with
  | ok e' => exact absurd (Expression.withLoops_eq_ok_iff.mp hfound).1 h
  | error err =>
    obtain ⟨i, loop, hloop, hfirst, rfl⟩ := Expression.withLoops_eq_error_iff.mp hfound
    refine ⟨i, loop, hloop, hfirst, ?_⟩
    rw [editExpr, expr_eq_ok_iff.mpr he]
    simp only [bind, Except.bind, hfound]

/-- Lists of loops are taken as they are if they have no repetition, and refused for their first
repetition otherwise. So no check ever finds a loop listed twice, in an expression or in a body,
whatever has been done to them. -/
theorem loops_taken_iff_nodup :
    (∀ loops, (firstRepeated [] loops = none ↔ loops.Nodup) ∧
      ∀ loop, firstRepeated [] loops = some loop ↔
        ∃ i : Nat, loops[i]? = some loop ∧ FirstRepeat loops i) ∧
    (∀ (e : Expression) (loops : List Nat),
      (∀ e', e.withLoops loops = .ok e' ↔ loops.Nodup ∧ e' = { e with loops := loops }) ∧
      ∀ err, e.withLoops loops = .error err ↔
        ∃ i loop, loops[i]? = some loop ∧ FirstRepeat loops i ∧ err = .duplicateLoopId loop) ∧
    (∀ (b : Body) (id : ExprId) (e : Expression) (loops : List Nat), b.expr id = .ok e →
      ¬ loops.Nodup → ∃ i loop, loops[i]? = some loop ∧ FirstRepeat loops i ∧
        b.editExpr id (·.withLoops loops) = (.error (.duplicateLoopId loop), b)) ∧
    (∀ e, Fresh e → ∀ changes, (e.triedAll changes).validate = .ok ()) ∧
    ∀ b, Tampered b → FailsWith SparesLoops b.validate ∧
      ∀ id e, b.expr id = .ok e → e.validate = .ok () := by
  exact ⟨fun loops => ⟨Expression.firstRepeated_nil_eq_none_iff,
      fun loop => Expression.firstRepeated_nil_eq_some_iff⟩,
    fun e loops => ⟨fun e' => Expression.withLoops_eq_ok_iff,
      fun err => Expression.withLoops_eq_error_iff⟩,
    fun b id e loops he => editExpr_loops_of_not_nodup (expr_eq_ok_iff.mp he),
    fun e h => h.validate,
    fun b h => ⟨h.failsWith_validate, fun id e => h.validate_expr⟩⟩

/-- Of two loops that come again, the one that does so first is reported. -/
theorem loops_taken_echo :
    ¬ [3, 1, 1, 3].Nodup ∧
      echo.editExpr ⟨1⟩ (·.withLoops [3, 1, 1, 3]) = (.error (.duplicateLoopId 1), echo) ∧
      (∃ e, Fresh e ∧ (e.triedAll [.loops [3, 1, 1, 3], .loops [2]]).validate = .ok ()) ∧
      Tampered echo ∧ FailsWith SparesLoops echo.validate := by
  obtain ⟨hfirst, -, hrefused, hexpressions, hbodies⟩ := loops_taken_iff_nodup
  obtain ⟨e, he⟩ : ∃ e, echo.expr ⟨1⟩ = .ok e := ⟨_, rfl⟩
  have hrepeats : ¬ [3, 1, 1, 3].Nodup := by decide
  obtain ⟨i, loop, hloop, hplace, hedit⟩ := hrefused echo ⟨1⟩ e _ he hrepeats
  obtain rfl : 1 = loop :=
    Option.some.inj (((hfirst [3, 1, 1, 3]).2 loop).mpr ⟨i, hloop, hplace⟩)
  obtain ⟨relu, hrelu⟩ : ∃ relu,
      Expression.make (.make "y" (.unary .relu)) [⟨0⟩] [⟨1⟩] none = .ok relu := ⟨_, rfl⟩
  have hfresh : Fresh relu := .make hrelu
  have htampered : Tampered echo := .reachable reachable_echo
  exact ⟨hrepeats, hedit, ⟨relu, hfresh, hexpressions relu hfresh _⟩, htampered,
    (hbodies echo htampered).1⟩

end Body

end TensorIR
