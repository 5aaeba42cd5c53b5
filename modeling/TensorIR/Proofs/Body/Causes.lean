import TensorIR.Proofs.Body.Abstraction
import TensorIR.Proofs.Inference.Causes

/-!
# Inference fails because of shapes

In a body of built-in operations every expression has the rule of its operation, and an update hands
to the rule the shapes that reach the operands, one for each of them. That many operands is what the
rule is made for, so it can only refuse the shapes themselves, and an answer has a shape for every
output. What else an update reports is that there is no such expression or, if the shapes were
handed in from outside, that there are too many or too few.
-/

set_option autoImplicit false

namespace TensorIR.Body

open ShapeError (OfShapes)

variable {b b' : Body} {id : ExprId} {e : Expression} {operands : List Shape} {cause : ShapeError}
  {err : IrError}

/-! ## One expression -/

/-- The rule of an expression fits its ports. -/
theorem BuiltIn.rule_fits (hb : BuiltIn b) (h : Numbered b) (he : b.exprs.get? id = some e) :
    ∃ rule, ShapeRule.ofOp? e.node.op = some rule ∧ e.strategy = some rule.infer ∧
      rule.Accepts e.inputs.length ∧ rule.outputCount = e.outputs.length := by
  obtain ⟨rule, hrule, hstrategy⟩ := hb.strategy h he
  refine ⟨rule, hrule, hstrategy, ?_, ?_⟩
  · rw [e.length_inputs]
    exact ShapeRule.accepts_inputCount hrule
  · rw [e.length_outputs]
    exact ShapeRule.outputCount_eq hrule

theorem BuiltIn.attempt_error (hb : BuiltIn b) (h : Numbered b) (he : b.exprs.get? id = some e)
    (hcount : operands.length = e.inputs.length) (hfails : e.attempt operands = .error cause) :
    cause.OfShapes := by
  obtain ⟨rule, -, hstrategy, haccepts, houtputs⟩ := hb.rule_fits h he
  simp only [Expression.attempt, hstrategy] at hfails
  cases hanswer : rule.infer operands with
  | error found =>
    simp only [Expression.runStrategy, hanswer, Except.error.injEq] at hfails
    exact hfails ▸ ShapeRule.infer_error (hcount ▸ haccepts) hanswer
  | ok answer =>
    -- An answer has the right number of shapes, so it is no failure.
    obtain ⟨out, rfl, hout⟩ := ShapeRule.infer_ok hanswer
    have hok := Expression.runStrategy_eq_ok_iff.mpr ⟨hanswer, hout.trans houtputs⟩
    rw [hok] at hfails
    cases hfails

/-- An update over any shapes is refused for their number, or fails because of them. -/
theorem BuiltIn.feed_error (hb : BuiltIn b) (h : Numbered b) (he : b.exprs.get? id = some e)
    (hfails : (e.updateShapes operands).1 = .error err) :
    (operands.length ≠ e.inputs.length ∧
      err = .arityMismatch .inputShapeBatch e.inputs.length operands.length) ∨
    ∃ cause, err = .shapeInference e.node.name cause ∧ cause.OfShapes := by
  by_cases hcount : operands.length = e.inputs.length
  · right
    rcases Expression.updateShapes_cases hcount with
      ⟨cause, e', hattempt, herr, -⟩ | ⟨out, e', -, hok, -⟩
    · rw [herr] at hfails
      exact ⟨cause, (Except.error.inj hfails).symm, hb.attempt_error h he hcount hattempt⟩
    · rw [hok] at hfails
      cases hfails
  · left
    rw [Expression.updateShapes, if_pos hcount] at hfails
    exact ⟨hcount, (Except.error.inj hfails).symm⟩

/-- An update from within the body has the right number of shapes. -/
theorem BuiltIn.updateShapes_error (hb : BuiltIn b) (h : Coherent b)
    (hfails : (b.updateShapes id).1 = .error err) :
    (b.expr id = .error err ∧ err = .unknownExpression id) ∨
    ∃ e cause, b.expr id = .ok e ∧ err = .shapeInference e.node.name cause ∧ cause.OfShapes := by
  cases hget : b.exprs.get? id with
  | none =>
    left
    have hunknown : b.expr id = .error (.unknownExpression id) := by rw [expr, hget]
    rw [updateShapes, hunknown] at hfails
    obtain rfl := Except.error.inj hfails
    exact ⟨hunknown, rfl⟩
  | some e =>
    right
    obtain ⟨operands, hoperands, hcount⟩ := h.toWired.exists_carried hget
    rw [updateShapes_of_carried hget hoperands] at hfails
    rcases hb.feed_error h.toNumbered hget hfails with ⟨hne, -⟩ | ⟨cause, herr, hcause⟩
    · exact absurd hcount hne
    · exact ⟨e, cause, expr_eq_ok_iff.mpr hget, herr, hcause⟩

/-! ## The whole body -/

/-- An inference that stops has come to an expression that refuses the shapes that reach it. -/
theorem BuiltIn.stopped (hb : BuiltIn b) (h : Coherent b) (hr : Retouched b b')
    (hfails : b'.Fails id err) :
    ∃ e cause, b.expr id = .ok e ∧ err = .shapeInference e.node.name cause ∧ cause.OfShapes := by
  obtain ⟨e', operands, cause, he', hoperands, hattempt, rfl⟩ := hfails
  obtain ⟨e, he, hretouched⟩ := hr.before (expr_eq_ok_iff.mp he')
  have hcount : operands.length = e.inputs.length := by
    have hlength := congrArg List.length hoperands
    rw [hretouched.inputs] at hlength
    simpa [Expression.inputConnectors] using hlength.symm
  rw [hretouched.attempt] at hattempt
  rw [hretouched.node]
  exact ⟨e, cause, expr_eq_ok_iff.mpr he, rfl, hb.attempt_error h.toNumbered he hcount hattempt⟩

theorem BuiltIn.inferShapes_error (hb : BuiltIn b) (h : Coherent b) {shapes : List Shape}
    (hfails : (b.inferShapes shapes).1 = .error err) :
    (shapes ≠ [] ∧ shapes.length ≠ b.parameterIds.length ∧
      err = .arityMismatch .graphInputShapes b.parameterIds.length shapes.length) ∨
    ∃ id e cause, b.expr id = .ok e ∧ err = .shapeInference e.node.name cause ∧
      cause.OfShapes := by
  by_cases hfits : shapes = [] ∨ shapes.length = b.parameterIds.length
  · right
    obtain ⟨b', hr, ⟨found, heq, hstopped⟩ | ⟨out, heq, -⟩⟩ := h.inferShapes_cases hfits
    · rw [heq] at hfails
      obtain rfl := Except.error.inj hfails
      obtain ⟨-, id, -, -, -, hstop, -⟩ := hstopped.first
      exact ⟨id, hb.stopped h hr hstop⟩
    · rw [heq] at hfails
      cases hfails
  · left
    obtain ⟨hne, hlength⟩ := not_or.mp hfits
    rw [inferShapes_mismatch hne hlength] at hfails
    exact ⟨hne, hlength, (Except.error.inj hfails).symm⟩

/-- A built-in rule never looks past the end of a list, and what it answers has a shape for each
output of its operation. In a body that can come about and consists of built-in operations, every
expression has the rule of its operation and as many shapes reach it as the operation has operands.
Inference, of one expression or of the whole body, then fails only because operands are
incompatible, have too few dimensions or do not have the axis. -/
theorem causes_of_builtIn (h : Reachable b) (hb : BuiltIn b) :
    (∀ op rule, ShapeRule.ofOp? op = some rule → ∀ operands,
      rule.inferAt? operands = some (rule.infer operands) ∧
      ∀ answer, rule.infer operands = .ok answer →
        ∃ out, answer = .success out ∧ out.length = op.outputCount) ∧
    (∀ id e, b.expr id = .ok e → ∃ (rule : ShapeRule) (operands : List Shape),
      ShapeRule.ofOp? e.node.op = some rule ∧ e.strategy = some rule.infer ∧
      e.inputConnectors.mapM b.carriedShape = .ok operands ∧
      operands.length = e.node.op.inputCount ∧ e.outputs.length = e.node.op.outputCount) ∧
    (∀ id err, (b.updateShapes id).1 = .error err →
      (b.expr id = .error err ∧ err = .unknownExpression id) ∨
      ∃ e cause, b.expr id = .ok e ∧ err = .shapeInference e.node.name cause ∧
        cause.OfShapes) ∧
    (∀ id e operands err, b.expr id = .ok e → (e.updateShapes operands).1 = .error err →
      (operands.length ≠ e.inputs.length ∧
        err = .arityMismatch .inputShapeBatch e.inputs.length operands.length) ∨
      ∃ cause, err = .shapeInference e.node.name cause ∧ cause.OfShapes) ∧
    ∀ shapes err, (b.inferShapes shapes).1 = .error err →
      (shapes ≠ [] ∧ shapes.length ≠ b.parameterIds.length ∧
        err = .arityMismatch .graphInputShapes b.parameterIds.length shapes.length) ∨
      ∃ id e cause, b.expr id = .ok e ∧ err = .shapeInference e.node.name cause ∧
        cause.OfShapes := by
  have hc : Coherent b := h.coherent
  refine ⟨?_, ?_, fun id err => hb.updateShapes_error hc, ?_,
    fun shapes err => hb.inferShapes_error hc⟩
  · intro op rule hrule operands
    refine ⟨ShapeRule.inferAt?_eq (ShapeRule.ne_broadcast_zero hrule) operands, ?_⟩
    intro answer hanswer
    obtain ⟨out, hout, hlength⟩ := ShapeRule.infer_ok hanswer
    exact ⟨out, hout, hlength.trans (ShapeRule.outputCount_eq hrule)⟩
  · intro id e he
    have hget := expr_eq_ok_iff.mp he
    obtain ⟨rule, hrule, hstrategy⟩ := hb.strategy hc.toNumbered hget
    obtain ⟨operands, hoperands, hlength⟩ := hc.toWired.exists_carried hget
    exact ⟨rule, operands, hrule, hstrategy, mapM_eq_ok_iff.mpr hoperands,
      hlength.trans e.length_inputs, e.length_outputs⟩
  · intro id e operands err he hfails
    exact hb.feed_error hc.toNumbered (expr_eq_ok_iff.mp he) hfails

/-- A matrix with one dimension and a row of another length are incompatible. -/
theorem causes_of_builtIn_rowSums :
    Reachable rowSums ∧ BuiltIn rowSums ∧
    (rowSums.inferShapes [⟨[.static 2]⟩, ⟨[.static 3]⟩]).1 =
      .error (.shapeInference "sum" (.incompatible ⟨[.static 2]⟩ ⟨[.static 3]⟩)) ∧
    ∃ id e cause, rowSums.expr id = .ok e ∧ e.node.name = "sum" ∧
      cause = .incompatible ⟨[.static 2]⟩ ⟨[.static 3]⟩ ∧ OfShapes cause := by
  have hfails : (rowSums.inferShapes [⟨[.static 2]⟩, ⟨[.static 3]⟩]).1 =
      .error (.shapeInference "sum" (.incompatible ⟨[.static 2]⟩ ⟨[.static 3]⟩)) := by
    simp only [inferShapes, parameterIds, resultShapes, boundary_eq_insertionSort]
    rfl
  obtain ⟨-, -, -, -, hinfer⟩ := causes_of_builtIn reachable_rowSums builtIn_rowSums
  refine ⟨reachable_rowSums, builtIn_rowSums, hfails, ?_⟩
  rcases hinfer _ _ hfails with ⟨-, -, herr⟩ | ⟨id, e, cause, he, herr, hcause⟩
  · cases herr
  · injection herr with hname hfound
    exact ⟨id, e, cause, he, hname.symm, hfound.symm, hcause⟩

end TensorIR.Body
