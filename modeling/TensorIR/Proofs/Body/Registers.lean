import TensorIR.Proofs.Body.History
import TensorIR.Proofs.Expression.Registers

/-!
# Registers over a history

Shape inference replaces descriptors and keeps the registers in them, also when it fails half way
and also when a tensor gets another number of axes. An assignment that is refused leaves no trace.
So after any history of the two, an expression has the registers of the last assignment that it has
taken (`exists_registers_run`), or those that it had at the beginning.

Whether an assignment is taken depends on the node alone, which no call of such a history changes.
So the history itself tells what was taken last (`registersAfter`).
-/

set_option autoImplicit false

namespace TensorIR.Body

open Expression (updated)

variable {b : Body} {id : ExprId} {e : Expression}

/-! ## Shape inference -/

theorem Action.InfersShapes.reshaped {action : Action} (h : action.InfersShapes) (b : Body) :
    Reshaped b (b.after action) := by
  cases action with
  | updateShapes id => exact (survives_reshaped b).updateShapes (.refl b) id
  | inferShapes shapes => exact reshaped_inferShapes b shapes
  | feed id operands =>
    rcases onExpr_cases b id (·.updateShapes operands) with ⟨err, heq⟩ | ⟨e, he, heq⟩
    · rw [after, heq]
      exact .refl b
    · rw [after, heq]
      exact survives_reshaped b b id e _ he (e.reshaped_updateShapes operands) (.refl b)
  | insert | push | remove | replaceInput | initEmitters | edit => cases h

theorem Reshaped.registers {b' : Body} (h : Reshaped b b') (he : b.exprs.get? id = some e) :
    ∃ e', b'.exprs.get? id = some e' ∧ e'.node = e.node ∧ e'.registers = e.registers := by
  obtain ⟨e', he', hee'⟩ := h.toRetouched.after he
  exact ⟨e', he', hee'.node, (h.reshaped id e e' he he').registers⟩

/-! ## One call -/

/-- The call infers shapes or assigns registers. -/
def Action.KeepsRegisters (action : Action) : Prop :=
  action.InfersShapes ∨ ∃ id r, action = .edit id (.registers r)

/-- The registers of an expression after a call that infers shapes or assigns registers, if it had
some before. -/
def registersAfter (id : ExprId) (e : Expression) (r : RegisterAssignment) :
    Action → RegisterAssignment
  | .edit other (.registers r') => if other = id ∧ e.Takes r' then r' else r
  | _ => r

theorem registersAfter_of_infersShapes {action : Action} (h : action.InfersShapes)
    (r : RegisterAssignment) : registersAfter id e r action = r := by
  cases action with
  | edit => cases h
  | _ => rfl

/-- An assignment that is refused leaves the body as it was. -/
theorem editExpr_registers_of_not_takes (he : b.exprs.get? id = some e) {r : RegisterAssignment}
    (h : ¬ e.Takes r) :
    b.editExpr id (·.withRegisters r) = (.error (e.mismatch r), b) := by
  rw [editExpr, expr_eq_ok_iff.mpr he]
  simp only [bind, Except.bind, Expression.withRegisters_of_not_takes h]

theorem after_registers_of_not_takes (he : b.exprs.get? id = some e) {r : RegisterAssignment}
    (h : ¬ e.Takes r) : b.after (.edit id (.registers r)) = b :=
  congrArg Prod.snd (editExpr_registers_of_not_takes he h)

theorem after_registers_of_takes (he : b.exprs.get? id = some e) {r : RegisterAssignment}
    (h : e.Takes r) :
    b.after (.edit id (.registers r)) = { b with exprs := b.exprs.insert id (e.assign r) } :=
  congrArg Prod.snd (editExpr_ok he (Expression.withRegisters_of_takes h))

/-- A change to another expression leaves this one alone. -/
theorem get?_after_edit_of_ne {other : ExprId} (hne : id ≠ other) (change : Expression.Edit) :
    (b.after (.edit other change)).exprs.get? id = b.exprs.get? id := by
  rcases editExpr_cases b other change.apply with ⟨err, heq⟩ | ⟨e, e', -, -, heq⟩
  · rw [after, heq]
  · rw [after, heq]
    exact OrderedMap.get?_insert_of_ne _ _ hne

/-- What an expression has after a call depends on the call and on what it had. -/
theorem exists_registers_after {action : Action} (h : action.KeepsRegisters)
    (he : b.exprs.get? id = some e) : ∃ e', (b.after action).exprs.get? id = some e' ∧
      e'.node = e.node ∧ e'.registers = registersAfter id e e.registers action := by
  obtain hinfers | ⟨other, r, rfl⟩ := h
  · rw [registersAfter_of_infersShapes hinfers]
    exact (hinfers.reshaped b).registers he
  rw [registersAfter]
  by_cases hother : other = id
  · subst hother
    by_cases htakes : e.Takes r
    · rw [if_pos ⟨rfl, htakes⟩, after_registers_of_takes he htakes]
      exact ⟨e.assign r, OrderedMap.get?_insert_self .., rfl, Expression.registers_assign htakes⟩
    · rw [if_neg fun h => htakes h.2, after_registers_of_not_takes he htakes]
      exact ⟨e, he, rfl, rfl⟩
  · rw [if_neg fun h => hother h.1, get?_after_edit_of_ne (Ne.symm hother)]
    exact ⟨e, he, rfl, rfl⟩

/-! ## Histories -/

theorem registersAfter_of_node {e' : Expression} (h : e'.node = e.node) (r : RegisterAssignment)
    (action : Action) : registersAfter id e' r action = registersAfter id e r action := by
  unfold registersAfter
  split
  · simp only [Expression.takes_iff_of_node h]
  · rfl

/-- By induction on the calls: one after the other they do to the registers what they say. -/
theorem exists_registers_run {calls : List Action} (h : ∀ call ∈ calls, call.KeepsRegisters)
    (he : b.exprs.get? id = some e) : ∃ e', (b.run calls).exprs.get? id = some e' ∧
      e'.node = e.node ∧ e'.registers = calls.foldl (registersAfter id e) e.registers := by
  induction calls generalizing b e with
  | nil => exact ⟨e, he, rfl, rfl⟩
  | cons call calls ih =>
    obtain ⟨hcall, hcalls⟩ := List.forall_mem_cons.mp h
    obtain ⟨e₁, he₁, hnode₁, hregisters₁⟩ := exists_registers_after hcall he
    obtain ⟨e', he', hnode, hregisters⟩ := ih hcalls he₁
    refine ⟨e', he', hnode.trans hnode₁, ?_⟩
    have hsame : registersAfter id e₁ = registersAfter id e :=
      funext fun r => funext fun action => registersAfter_of_node hnode₁ r action
    rw [hregisters, hregisters₁, hsame, List.foldl_cons]

/-- The assignment of registers is a lens on every expression, all or nothing, and what was assigned
last is kept by updates of shapes, whatever becomes of them. In a body, an assignment that is
refused changes nothing, and a history of assignments and shape inferences leaves an expression with
the registers that it took last. -/
theorem registers_kept (e : Expression) :
    (∀ r, e.AssignsWhole r) ∧
    (∀ updates, (updated e updates).registers = e.registers) ∧
    ∀ b id, expr b id = .ok e →
      (∀ r, ¬ e.Takes r →
        b.editExpr id (·.withRegisters r) = (.error (e.mismatch r), b)) ∧
      ∀ calls : List Action, (∀ call ∈ calls, call.KeepsRegisters) →
        ∃ e', (b.run calls).expr id = .ok e' ∧
          e'.registers = calls.foldl (registersAfter id e) e.registers := by
  refine ⟨e.assignsWhole, fun updates => (e.reshaped_updated updates).registers, ?_⟩
  intro b id he
  have hget := expr_eq_ok_iff.mp he
  refine ⟨fun r h => editExpr_registers_of_not_takes hget h, fun calls hcalls => ?_⟩
  obtain ⟨e', he', -, hregisters⟩ := exists_registers_run hcalls hget
  exact ⟨e', expr_eq_ok_iff.mpr he', hregisters⟩

/-- A matrix of unknown size whose entries are all made positive. -/
def positive : Body :=
  ((empty none).after (.push (.make "x" (.parameter ⟨[.dynamic, .dynamic]⟩)) [])).after
    (.push (.make "y" (.unary .relu)) [⟨0⟩])

/-- The operand gets another number of axes, an assignment lacks an entry for the output, and an
update has no shape for the operand. -/
def disturbances : List Action :=
  [.feed ⟨1⟩ [.scalar], .edit ⟨1⟩ (.registers ⟨[none], []⟩), .feed ⟨1⟩ [], .inferShapes []]

theorem registers_kept_positive :
    ∃ e, positive.expr ⟨1⟩ = .ok e ∧
      positive.editExpr ⟨1⟩ (·.withRegisters ⟨[none], []⟩) =
        (.error (.arityMismatch .outputRegisters 1 0), positive) ∧
      ∃ e', (positive.run
          (.edit ⟨1⟩ (.registers ⟨[some ⟨.vec, 0⟩], [some ⟨.vec, 1⟩]⟩) :: disturbances)).expr ⟨1⟩ =
        .ok e' ∧ e'.registers = ⟨[some ⟨.vec, 0⟩], [some ⟨.vec, 1⟩]⟩ := by
  have hcalls : ∀ call ∈ Action.edit ⟨1⟩ (.registers ⟨[some ⟨.vec, 0⟩], [some ⟨.vec, 1⟩]⟩) ::
      disturbances, call.KeepsRegisters := by
    simp [disturbances, Action.KeepsRegisters, Action.InfersShapes]
  obtain ⟨e, he, hin, hout⟩ : ∃ e, positive.expr ⟨1⟩ = .ok e ∧ e.inputs.length = 1 ∧
      e.outputs.length = 1 := ⟨_, rfl, rfl, rfl⟩
  have htakes : ∀ r, e.Takes r ↔ r.inputs.length = 1 ∧ r.outputs.length = 1 := by
    intro r
    rw [Expression.Takes, hin, hout]
  have hlacking : ¬ e.Takes ⟨[none], []⟩ := by simp [htakes]
  obtain ⟨hrefused, hkept⟩ := (registers_kept e).2.2 positive ⟨1⟩ he
  have hedit := hrefused _ hlacking
  rw [Expression.mismatch, hin, hout] at hedit
  obtain ⟨e', he', hregisters⟩ := hkept _ hcalls
  refine ⟨e, he, hedit, e', he', ?_⟩
  rw [hregisters]
  simp [disturbances, registersAfter, htakes]

end TensorIR.Body
