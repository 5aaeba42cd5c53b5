import Mathlib.Data.List.Induction
import TensorIR.Proofs.Body.Inference
import TensorIR.Proofs.Pointwise

/-!
# Two bodies side by side

Expressions of two bodies are paired so that each reads what its counterpart reads and answers
alike if it is asked alike (`Corresponds`). If besides paired parameters have like shapes
(`Twins`), inference does not tell the bodies apart: where it went through in both, all paired
expressions have like shapes (`Twins.shapes_of_settled`), and it does not stop in the second if it
went through in the first (`Twins.not_stoppedAt`).

What is paired and which shapes are alike is left open. The bodies may be one body that is inferred
twice, or mirror different models; shapes may be alike if they are equal, or if one is an instance
of the other.

The argument goes along the schedule of the second body once, for all of these
(`Twins.outputs_of_settled`): whatever reaches an expression was output by one before it. Nothing is
assumed about the schedule of the first body.
-/

set_option autoImplicit false

namespace TensorIR.Body

/-- The expression is an input of the graph. -/
def IsParameter (b : Body) (id : ExprId) : Prop :=
  ∃ e, b.exprs.get? id = some e ∧ e.node.op.side? = some .input

/-- All expressions of the list have the shapes that follow from what they read, parameters
aside. -/
def SettledIn (b : Body) (ids : List ExprId) : Prop :=
  ∀ id ∈ ids, ¬ b.IsParameter id → b.Settled id

/-- An inference stopped at the expression, with all before it settled. -/
structure StoppedAt (b : Body) (before : List ExprId) (p : ExprId) (err : IrError) : Prop where
  order : ∃ after, b.order = before ++ p :: after
  notParameter : ¬ b.IsParameter p
  fails : b.Fails p err
  settled : b.SettledIn before

section Definitions

variable (pair : ExprId → ExprId → Prop) (like : Shape → Shape → Prop) (b c : Body)

/-- The connectors carry the same output of paired expressions. -/
def SameSource (x y : ConnectorId) : Prop :=
  ∃ k l, b.connectors.get? x = some k ∧ c.connectors.get? y = some l ∧
    pair k.source.expr l.source.expr ∧ k.source.index = l.source.index

/-- The expressions read the same, and the second has an answer where the first does, and a like
one. What parameters would answer does not matter, because they are not asked. -/
structure Counterparts (e e' : Expression) : Prop where
  side : e.node.op.side? = e'.node.op.side?
  operands : List.Forall₂ (SameSource pair b c) e.inputConnectors e'.inputConnectors
  attempt : e.node.op.side? ≠ some .input → ∀ operands operands' out,
    List.Forall₂ like operands operands' → e.attempt operands = .ok out →
      ∃ out', e'.attempt operands' = .ok out' ∧ List.Forall₂ like out out'

/-- Paired expressions are there and are counterparts. -/
def Corresponds : Prop :=
  ∀ p q, pair p q → ∃ e e', b.exprs.get? p = some e ∧ c.exprs.get? q = some e' ∧
    Counterparts pair like b c e e'

/-- The outputs of the expressions have like shapes. -/
def OutputsLike (p q : ExprId) : Prop :=
  ∃ e e', b.exprs.get? p = some e ∧ c.exprs.get? q = some e' ∧
    List.Forall₂ like e.outputShapes e'.outputShapes

/-- The bodies correspond, and paired parameters have like shapes. -/
structure Twins : Prop where
  wired : Wired b
  wired' : Wired c
  corresponds : Corresponds pair like b c
  params : ∀ p q, pair p q → b.IsParameter p → OutputsLike like b c p q

end Definitions

variable {pair : ExprId → ExprId → Prop} {like : Shape → Shape → Prop} {b b' c c' : Body}
  {p q : ExprId} {e e' : Expression} {before after : List ExprId}

/-! ## Parameters -/

theorem ByOrdinal.isParameter_iff {params : List ExprId} (h : b.ByOrdinal .input params)
    (id : ExprId) : b.IsParameter id ↔ id ∈ params := by
  rw [h.mem_iff]
  simp only [IsParameter, expr_eq_ok_iff]

theorem Retouched.isParameter_iff (h : Retouched b b') (id : ExprId) :
    b'.IsParameter id ↔ b.IsParameter id := by
  constructor
  · intro hx
    obtain ⟨e', he', hside⟩ := hx
    obtain ⟨e, he, hee'⟩ := h.before he'
    exact ⟨e, he, hee'.node ▸ hside⟩
  · intro hx
    obtain ⟨e, he, hside⟩ := hx
    obtain ⟨e', he', hee'⟩ := h.after he
    exact ⟨e', he', hee'.node ▸ hside⟩

/-! ## A body beside itself -/

/-- Every live expression with the property is its own counterpart. -/
def Itself (b : Body) (keep : ExprId → Prop) (p q : ExprId) : Prop :=
  p = q ∧ (∃ e, b.exprs.get? p = some e) ∧ keep p

/-- A body corresponds to itself where whatever an expression reads has the property with it, and
where it answers alike if it is asked alike. -/
theorem Wired.corresponds_self (h : Wired b) {keep : ExprId → Prop}
    (hreads : ∀ p e x k, keep p → b.exprs.get? p = some e → x ∈ e.inputConnectors →
      b.connectors.get? x = some k → keep k.source.expr)
    (hattempt : ∀ p e, b.exprs.get? p = some e → e.node.op.side? ≠ some .input →
      ∀ operands operands' out, List.Forall₂ like operands operands' →
        e.attempt operands = .ok out →
          ∃ out', e.attempt operands' = .ok out' ∧ List.Forall₂ like out out') :
    Corresponds (b.Itself keep) like b b := by
  rintro p _ ⟨rfl, ⟨e, he⟩, hkeep⟩
  refine ⟨e, e, he, he, rfl, List.forall₂_same.mpr fun x hx => ?_, hattempt p e he⟩
  obtain ⟨i, hread⟩ := Reads.of_mem he hx
  obtain ⟨k, hk⟩ := h.live_of_reads hread
  obtain ⟨source, hsource, -⟩ := h.feeds_source hk
  exact ⟨k, k, hk, hk, ⟨rfl, ⟨source, hsource⟩, hreads p e x k hkeep he hx hk⟩, rfl⟩

/-! ## Passes over both bodies -/

theorem SameSource.retouched {x y : ConnectorId} (h : SameSource pair b c x y)
    (hb : Retouched b b') (hc : Retouched c c') : SameSource pair b' c' x y := by
  unfold SameSource
  rw [hb.connectors, hc.connectors]
  exact h

theorem Corresponds.retouched (h : Corresponds pair like b c) (hb : Retouched b b')
    (hc : Retouched c c') : Corresponds pair like b' c' := by
  intro p q hpq
  obtain ⟨e, f, he, hf, hef⟩ := h p q hpq
  obtain ⟨e', he', hee'⟩ := hb.after he
  obtain ⟨f', hf', hff'⟩ := hc.after hf
  refine ⟨e', f', he', hf', ?_, ?_, ?_⟩
  · rw [hee'.node, hff'.node]
    exact hef.side
  · rw [hee'.inputs, hff'.inputs]
    exact hef.operands.imp fun x y hxy => hxy.retouched hb hc
  · intro hside operands operands' out hoperands hout
    rw [hee'.node] at hside
    rw [hee'.attempt] at hout
    rw [hff'.attempt]
    exact hef.attempt hside operands operands' out hoperands hout

theorem Corresponds.isParameter_iff (h : Corresponds pair like b c) (hpq : pair p q) :
    c.IsParameter q ↔ b.IsParameter p := by
  obtain ⟨e, e', he, he', hee'⟩ := h p q hpq
  simp [IsParameter, he, he', hee'.side]

/-! ## One pair -/

/-- Connectors with the same source carry like shapes if the outputs of the source have them. -/
theorem SameSource.carried {x y : ConnectorId} (h : SameSource pair b c x y)
    (hsource : ∀ l, c.connectors.get? y = some l → ∀ p, pair p l.source.expr →
      OutputsLike like b c p l.source.expr) {shape shape' : Shape}
    (hx : b.carriedShape x = .ok shape) (hy : c.carriedShape y = .ok shape') :
    like shape shape' := by
  obtain ⟨k, l, hk, hl, hpair, hindex⟩ := h
  obtain ⟨e, e', he, he', houtputs⟩ := hsource l hl _ hpair
  rw [carriedShape_eq hk] at hx
  rw [carriedShape_eq hl] at hy
  obtain ⟨found, hfound, hlike⟩ := getElem?_of_forall₂ houtputs ((shapeAt_output_iff he).mp hx)
  rw [hindex, (shapeAt_output_iff he').mp hy] at hfound
  obtain rfl := Option.some.inj hfound
  exact hlike

/-- Like shapes reach paired expressions if all expressions before the second have like outputs. -/
theorem Counterparts.operands_like (h : Counterparts pair like b c e e') (hw : Wired c)
    (he' : c.exprs.get? q = some e')
    (hbefore : ∀ q', c.RunsBefore q' q → ∀ p', pair p' q' → OutputsLike like b c p' q')
    {operands operands' : List Shape}
    (hops : e.inputConnectors.map b.carriedShape = operands.map .ok)
    (hops' : e'.inputConnectors.map c.carriedShape = operands'.map .ok) :
    List.Forall₂ like operands operands' := by
  refine forall₂_of_map_ok hops hops' (forall₂_imp_of_mem h.operands fun x _ y hy hxy => ?_)
  intro shape shape' hshape hshape'
  obtain ⟨i, hreads⟩ := Reads.of_mem he' hy
  exact hxy.carried (fun l hl => hbefore _ (hw.ordered _ y l hreads hl)) hshape hshape'

theorem Counterparts.inputs_like (h : Counterparts pair like b c e e') (hw : Wired c)
    (he' : c.exprs.get? q = some e')
    (hbefore : ∀ q', c.RunsBefore q' q → ∀ p', pair p' q' → OutputsLike like b c p' q')
    (hfed : b.Fed e) (hfed' : c.Fed e') : List.Forall₂ like e.inputShapes e'.inputShapes :=
  h.operands_like hw he' hbefore (fed_iff.mp hfed) (fed_iff.mp hfed')

theorem Corresponds.outputs_like (h : Corresponds pair like b c) (hw : Wired c) (hpq : pair p q)
    (hnot : ¬ b.IsParameter p)
    (hbefore : ∀ q', c.RunsBefore q' q → ∀ p', pair p' q' → OutputsLike like b c p' q')
    (hb : b.Settled p) (hc : c.Settled q) : OutputsLike like b c p q := by
  obtain ⟨e, e', he, he', hee'⟩ := h p q hpq
  obtain ⟨f, hf, hfed, hattempt⟩ := hb
  obtain ⟨f', hf', hfed', hattempt'⟩ := hc
  obtain rfl := Option.some.inj (he.symm.trans (expr_eq_ok_iff.mp hf))
  obtain rfl := Option.some.inj (he'.symm.trans (expr_eq_ok_iff.mp hf'))
  have hinputs := hee'.inputs_like hw he' hbefore hfed hfed'
  obtain ⟨out, hout, hlike⟩ :=
    hee'.attempt (fun hside => hnot ⟨e, he, hside⟩) _ _ _ hinputs hattempt
  obtain rfl := Except.ok.inj (hattempt'.symm.trans hout)
  exact ⟨e, e', he, he', hlike⟩

/-! ## Along the schedule -/

/-- The first expressions of the schedule have like outputs with all their counterparts, if they and
their counterparts are settled. -/
theorem Twins.outputs_of_settled (h : Twins pair like b c) (horder : c.order = before ++ after)
    (hb : ∀ q ∈ before, ∀ p, pair p q → ¬ b.IsParameter p → b.Settled p)
    (hc : c.SettledIn before) :
    ∀ q ∈ before, ∀ p, pair p q → OutputsLike like b c p q := by
  -- Along the schedule: whatever an expression reads is output by one of those before it.
  induction before using List.reverseRecOn generalizing after with
  | nil => simp
  | append_singleton before next ih =>
    rw [List.append_assoc] at horder
    have hbefore := ih horder (fun q hq => hb q (List.mem_append_left _ hq))
      (fun q hq => hc q (List.mem_append_left _ hq))
    intro q hq p hpq
    rcases List.mem_append.mp hq with hq | hq
    · exact hbefore q hq p hpq
    · obtain rfl := List.mem_singleton.mp hq
      by_cases hparam : b.IsParameter p
      · exact h.params p q hpq hparam
      · have hlast : q ∈ before ++ [q] := List.mem_append_right _ (List.mem_singleton_self q)
        exact h.corresponds.outputs_like h.wired' hpq hparam
          (fun q' hq' => hbefore q' (h.wired'.mem_of_runsBefore horder hq'))
          (hb q hlast p hpq hparam)
          (hc q hlast fun hq => hparam ((h.corresponds.isParameter_iff hpq).mp hq))

/-- An expression does not fail if its counterpart is settled, and if what comes before it is settled
and has settled counterparts. -/
theorem Twins.not_fails (h : Twins pair like b c) (horder : c.order = before ++ q :: after)
    (hb : ∀ q ∈ before, ∀ p, pair p q → ¬ b.IsParameter p → b.Settled p)
    (hc : c.SettledIn before) (hpq : pair p q) (hnot : ¬ b.IsParameter p) (hp : b.Settled p)
    {err : IrError} : ¬ c.Fails q err := by
  intro hfails
  have hbefore := h.outputs_of_settled horder hb hc
  obtain ⟨e, e', he, he', hee'⟩ := h.corresponds p q hpq
  obtain ⟨f, hf, hfed, hattempt⟩ := hp
  obtain ⟨f', operands, cause, hf', hops, herror, -⟩ := hfails
  obtain rfl := Option.some.inj (he.symm.trans (expr_eq_ok_iff.mp hf))
  obtain rfl := Option.some.inj (he'.symm.trans (expr_eq_ok_iff.mp hf'))
  have hlike := hee'.operands_like h.wired' he'
    (fun q' hq' => hbefore q' (h.wired'.mem_of_runsBefore horder hq')) (fed_iff.mp hfed) hops
  obtain ⟨out, hout, -⟩ :=
    hee'.attempt (fun hside => hnot ⟨e, he, hside⟩) _ _ _ hlike hattempt
  rw [herror] at hout
  cases hout

/-! ## Settled bodies -/

theorem StoppedAt.mem {err : IrError} (h : b.StoppedAt before p err) : p ∈ b.order := by
  obtain ⟨after, horder⟩ := h.order
  rw [horder]
  exact List.mem_append_right _ List.mem_cons_self

/-- In a settled body all operands have the shapes that reach them. -/
theorem SettledIn.fed (h : b.SettledIn b.order) (hw : Wired b) (he : b.exprs.get? p = some e) :
    b.Fed e := by
  by_cases hside : e.node.op.side? = some .input
  · exact fed_of_parameter hside
  · have hnot : ¬ b.IsParameter p := by
      rintro ⟨f, hf, hparam⟩
      obtain rfl := Option.some.inj (he.symm.trans hf)
      exact hside hparam
    obtain ⟨f, hf, hfed, -⟩ := h p ((hw.mem_order p).mpr ⟨e, he⟩) hnot
    obtain rfl := Option.some.inj (he.symm.trans (expr_eq_ok_iff.mp hf))
    exact hfed

theorem Twins.settled (h : Twins pair like b c) (hb : b.SettledIn b.order) (hpq : pair p q)
    (hnot : ¬ b.IsParameter p) : b.Settled p := by
  obtain ⟨e, -, he, -⟩ := h.corresponds p q hpq
  exact hb p ((h.wired.mem_order p).mpr ⟨e, he⟩) hnot

/-- When both bodies are settled, paired expressions have like shapes at all ports. -/
theorem Twins.shapes_of_settled (h : Twins pair like b c) (hb : b.SettledIn b.order)
    (hc : c.SettledIn c.order) (hpq : pair p q) (he : b.exprs.get? p = some e)
    (he' : c.exprs.get? q = some e') :
    List.Forall₂ like e.inputShapes e'.inputShapes ∧
      List.Forall₂ like e.outputShapes e'.outputShapes := by
  have hall := h.outputs_of_settled (List.append_nil _).symm (fun _ _ _ => h.settled hb) hc
  obtain ⟨f, f', hf, hf', hff'⟩ := h.corresponds p q hpq
  obtain rfl := Option.some.inj (he.symm.trans hf)
  obtain rfl := Option.some.inj (he'.symm.trans hf')
  obtain ⟨g, g', hg, hg', houtputs⟩ := hall q ((h.wired'.mem_order q).mpr ⟨e', he'⟩) p hpq
  obtain rfl := Option.some.inj (he.symm.trans hg)
  obtain rfl := Option.some.inj (he'.symm.trans hg')
  refine ⟨hff'.inputs_like h.wired' he' (fun q' hq' => hall q' ?_) (hb.fed h.wired he)
    (hc.fed h.wired' he'), houtputs⟩
  exact hq'.subset List.mem_cons_self

/-- An inference does not stop if the one in the other body went through and every expression has a
counterpart there. -/
theorem Twins.not_stoppedAt (h : Twins pair like b c) (hb : b.SettledIn b.order)
    (hpaired : ∀ q ∈ c.order, ∃ p, pair p q) {err : IrError} : ¬ c.StoppedAt before q err := by
  intro hc
  obtain ⟨after, horder⟩ := hc.order
  obtain ⟨p, hpq⟩ := hpaired q hc.mem
  have hnot : ¬ b.IsParameter p :=
    fun hparam => hc.notParameter ((h.corresponds.isParameter_iff hpq).mpr hparam)
  exact h.not_fails horder (fun _ _ _ => h.settled hb) hc.settled hpq hnot (h.settled hb hpq hnot)
    hc.fails

/-! ## What inference leaves behind -/

variable {params results : List ExprId} {shapes out : List Shape}

theorem length_outputShapes_of_parameter (hside : e.node.op.side? = some .input) :
    e.outputShapes.length = 1 := by
  rw [Expression.outputShapes, List.length_map, e.length_outputs]
  exact (counts_of_parameter hside).2

/-- The shape of the only output of a parameter. -/
theorem outputShapes_of_parameter (he : b.exprs.get? p = some e)
    (hside : e.node.op.side? = some .input) {shape : Shape}
    (hshape : b.shapeAt ⟨p, .output, 0⟩ = .ok shape) : e.outputShapes = [shape] := by
  obtain ⟨only, honly⟩ := List.length_eq_one_iff.mp (length_outputShapes_of_parameter hside)
  have hfirst := (shapeAt_output_iff he).mp hshape
  rw [honly] at hfirst
  obtain rfl := Option.some.inj hfirst
  exact honly

theorem ByOrdinal.exists_given (hparams : b.ByOrdinal .input params)
    (hlength : shapes.length = params.length) (hparam : b.IsParameter p) :
    ∃ (i : Nat) (shape : Shape), params[i]? = some p ∧ shapes[i]? = some shape := by
  obtain ⟨i, hi⟩ := List.mem_iff_getElem?.mp ((hparams.isParameter_iff p).mp hparam)
  exact ⟨i, _, hi, List.getElem?_eq_getElem (hlength ▸ (List.getElem?_eq_some_iff.mp hi).1)⟩

/-- A parameter has the shape that was given for it. -/
theorem Given.outputShapes (h : Given b b' params shapes) (hparams : b.ByOrdinal .input params)
    (hr : Retouched b b') {i : Nat} {shape : Shape} (hp : params[i]? = some p)
    (hshape : shapes[i]? = some shape) :
    ∃ e, b'.exprs.get? p = some e ∧ e.outputShapes = [shape] := by
  obtain ⟨e, he, hside⟩ := (hparams.mem_iff p).mp (List.mem_of_getElem? hp)
  obtain ⟨e', he', hee'⟩ := hr.after (expr_eq_ok_iff.mp he)
  exact ⟨e', he', outputShapes_of_parameter he' (hee'.node ▸ hside) (h.given i p shape hp hshape)⟩

/-- Parameters of the same ordinal have like shapes if they were given such. -/
theorem Given.outputsLike {params' : List ExprId} {shapes' : List Shape}
    (h : Given b b' params shapes) (hparams : b.ByOrdinal .input params) (hr : Retouched b b')
    (h' : Given c c' params' shapes') (hparams' : c.ByOrdinal .input params')
    (hr' : Retouched c c') {i : Nat} {shape shape' : Shape} (hp : params[i]? = some p)
    (hq : params'[i]? = some q) (hshape : shapes[i]? = some shape)
    (hshape' : shapes'[i]? = some shape') (hlike : like shape shape') :
    OutputsLike like b' c' p q := by
  obtain ⟨e, he, hout⟩ := h.outputShapes hparams hr hp hshape
  obtain ⟨e', he', hout'⟩ := h'.outputShapes hparams' hr' hq hshape'
  exact ⟨e, e', he, he', by rw [hout, hout']; exact .cons hlike .nil⟩

/-- A parameter keeps the shape that it had if none is given. -/
theorem Given.outputShapes_kept (h : Given b b' params []) (hparams : b.ByOrdinal .input params)
    (hr : Retouched b b') (hp : p ∈ params) (he : b.exprs.get? p = some e) :
    ∃ e', b'.exprs.get? p = some e' ∧ e'.outputShapes = e.outputShapes := by
  obtain ⟨f, hf, hside⟩ := (hparams.mem_iff p).mp hp
  obtain rfl := Option.some.inj (he.symm.trans (expr_eq_ok_iff.mp hf))
  obtain ⟨e', he', hee'⟩ := hr.after he
  obtain ⟨shape, hshape⟩ := List.length_eq_one_iff.mp (length_outputShapes_of_parameter hside)
  refine ⟨e', he', ?_⟩
  rw [hshape]
  refine outputShapes_of_parameter he' (hee'.node ▸ hside) ((h.kept rfl p hp).trans ?_)
  exact (shapeAt_output_iff he).mpr (by rw [hshape]; rfl)

theorem Solved.settledIn (h : Solved b b' params results shapes out)
    (hparams : b.ByOrdinal .input params) (hr : Retouched b b') (hw : Wired b') :
    b'.SettledIn b'.order := by
  intro id hid hnot
  refine h.settled hw hid fun hmem => hnot ?_
  exact (hr.isParameter_iff id).mpr ((hparams.isParameter_iff id).mpr hmem)

theorem Stopped.stoppedAt {err : IrError} (h : Stopped b b' params shapes err)
    (hparams : b.ByOrdinal .input params) (hr : Retouched b b') :
    ∃ before p, b'.StoppedAt before p err := by
  obtain ⟨before, p, after, horder, hnot, hfails, hsettled⟩ := h.first
  have hparam : ∀ other, b'.IsParameter other ↔ other ∈ params := fun other =>
    (hr.isParameter_iff other).trans (hparams.isParameter_iff other)
  exact ⟨before, p,
    { order := ⟨after, hr.order.trans horder⟩
      notParameter := (hparam p).not.mpr hnot
      fails := hfails
      settled := fun other hother hnot' => hsettled other hother ((hparam other).not.mp hnot') }⟩

theorem Solved.result (h : Solved b b' params results shapes out) {j : Nat} {id : ExprId}
    (hid : results[j]? = some id) :
    ∃ shape, out[j]? = some shape ∧ b'.shapeAt ⟨id, .input, 0⟩ = .ok shape := by
  have hat := congrArg (·[j]?) h.results
  simp only [List.getElem?_map, hid, Option.map_some] at hat
  obtain ⟨shape, hshape, heq⟩ := Option.map_eq_some_iff.mp hat.symm
  exact ⟨shape, hshape, heq.symm⟩

/-- Answers are the same if the results have the same shapes. -/
theorem out_eq_of_shapes {out' : List Shape} {move : ExprId → ExprId}
    (h : results.map (fun id => b.shapeAt ⟨id, .input, 0⟩) = out.map .ok)
    (h' : (results.map move).map (fun id => c.shapeAt ⟨id, .input, 0⟩) = out'.map .ok)
    (hsame : ∀ id ∈ results, b.shapeAt ⟨id, .input, 0⟩ = c.shapeAt ⟨move id, .input, 0⟩) :
    out = out' := by
  have hout : out.map (.ok : Shape → Except IrError Shape) = out'.map .ok := by
    rw [← h, ← h', List.map_map]
    exact List.map_congr_left hsame
  exact List.map_injective_iff.mpr (fun _ _ => Except.ok.inj) hout

end TensorIR.Body
