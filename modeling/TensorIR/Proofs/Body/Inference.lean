import TensorIR.Proofs.Body.Boundary
import TensorIR.Proofs.Body.Checking
import TensorIR.Proofs.Body.Reachable
import TensorIR.Proofs.Except

/-!
# Shape inference solves the shape equations

An expression is settled when its operands have the shapes that reach them and its outputs those
that its strategy answers. One pass in execution order settles every expression: when it comes to an
expression, everything that the expression reads has got its shapes, and what is settled stays
settled, since later expressions are not read by earlier ones (`Wired.settled_congr`). That is the
invariant of the pass (`Wired.updateAll_cases`).
-/

set_option autoImplicit false

namespace TensorIR.Body

variable {b b' : Body} {id : ExprId} {e : Expression}

/-- The expression has the shapes that follow from the shapes of what it reads. -/
def Settled (b : Body) (id : ExprId) : Prop :=
  ∃ e, b.expr id = .ok e ∧ b.Fed e ∧ e.attempt e.inputShapes = .ok e.outputShapes

/-- There is no answer for the shapes that reach the expression. -/
def Fails (b : Body) (id : ExprId) (err : IrError) : Prop :=
  ∃ e operands cause, b.expr id = .ok e ∧
    e.inputConnectors.map b.carriedShape = operands.map .ok ∧
    e.attempt operands = .error cause ∧ err = .shapeInference e.node.name cause

/-! ## Who comes first -/

theorem Wired.ne_of_runsBefore (h : Wired b) {p q : ExprId} (hpq : b.RunsBefore p q) : p ≠ q := by
  rintro rfl
  obtain ⟨i, j, hi, hj, hij⟩ := (runsBefore_iff h.nodup).mp hpq
  obtain rfl := Except.ok.inj (hi.symm.trans hj)
  exact Nat.lt_irrefl i hij

theorem Wired.runsBefore_trans (h : Wired b) {p q r : ExprId} (hpq : b.RunsBefore p q)
    (hqr : b.RunsBefore q r) : b.RunsBefore p r := by
  obtain ⟨i, j, hi, hj, hij⟩ := (runsBefore_iff h.nodup).mp hpq
  obtain ⟨j', k, hj', hk, hjk⟩ := (runsBefore_iff h.nodup).mp hqr
  obtain rfl := Except.ok.inj (hj.symm.trans hj')
  exact (runsBefore_iff h.nodup).mpr ⟨i, k, hi, hk, Nat.lt_trans hij hjk⟩

/-- Who runs before an expression stands in the schedule before its place. -/
theorem Wired.mem_of_runsBefore (h : Wired b) {before after : List ExprId} {p : ExprId}
    (horder : b.order = before ++ id :: after) (hp : b.RunsBefore p id) : p ∈ before := by
  have hnodup := h.nodup
  rw [RunsBefore, horder] at hp
  rw [horder] at hnodup
  obtain ⟨i, j, hij, hi, hj⟩ := pair_sublist_iff.mp hp
  have hplace : (before ++ id :: after)[before.length]? = some id := by simp
  have hsame : j = before.length :=
    (List.getElem?_inj (List.getElem?_eq_some_iff.mp hj).1 hnodup).mp (hj.trans hplace.symm)
  subst hsame
  rw [List.getElem?_append_left hij] at hi
  exact List.mem_of_getElem? hi

/-- What reaches an expression depends on the expressions before it only. -/
theorem Wired.carriedShape_congr (h : Wired b) (hconnectors : b'.connectors = b.connectors)
    (he : b.exprs.get? id = some e)
    (hbefore : ∀ p, b.RunsBefore p id → b'.exprs.get? p = b.exprs.get? p) {c : ConnectorId}
    (hc : c ∈ e.inputConnectors) : b'.carriedShape c = b.carriedShape c := by
  obtain ⟨i, hreads⟩ := Reads.of_mem he hc
  obtain ⟨k, hk⟩ := h.live_of_reads hreads
  rw [carriedShape_eq hk, carriedShape_eq (hconnectors ▸ hk)]
  exact shapeAt_congr (hbefore k.source.expr (h.ordered ⟨id, i⟩ c k hreads hk))

theorem Wired.settled_congr (h : Wired b) (hconnectors : b'.connectors = b.connectors)
    (hsame : b'.exprs.get? id = b.exprs.get? id)
    (hbefore : ∀ p, b.RunsBefore p id → b'.exprs.get? p = b.exprs.get? p) (hs : b.Settled id) :
    b'.Settled id := by
  obtain ⟨e, he, hfed, hattempt⟩ := hs
  have hget := expr_eq_ok_iff.mp he
  refine ⟨e, expr_eq_ok_iff.mpr (hsame.trans hget), fun w hw => ?_, hattempt⟩
  rw [h.carriedShape_congr hconnectors hget hbefore (List.mem_map_of_mem hw)]
  exact hfed w hw

/-! ## One expression -/

theorem exprs_updateShapes_of_ne {other : ExprId} (hne : other ≠ id) :
    (b.updateShapes id).2.exprs.get? other = b.exprs.get? other := by
  unfold updateShapes
  split
  · rfl
  · rcases onExpr_cases b id (·.updateShapes _) with ⟨err, heq⟩ | ⟨e, -, heq⟩
    · rw [heq]
    · rw [heq]
      exact OrderedMap.get?_insert_of_ne _ _ hne

/-- Shapes reach all operands of a live expression. -/
theorem Wired.exists_carried (h : Wired b) (he : b.exprs.get? id = some e) :
    ∃ operands : List Shape, e.inputConnectors.map b.carriedShape = operands.map .ok ∧
      operands.length = e.inputs.length := by
  obtain ⟨operands, hoperands⟩ : ∃ operands : List Shape,
      e.inputConnectors.map b.carriedShape = operands.map .ok :=
    exists_map_eq_map_ok fun c hc => by
      obtain ⟨i, hreads⟩ := Reads.of_mem he hc
      exact h.exists_carriedShape hreads
  refine ⟨operands, hoperands, ?_⟩
  have := congrArg List.length hoperands
  simpa [Expression.inputConnectors] using this.symm

/-- To bring an expression up to date is to update it with the shapes that reach it. -/
theorem updateShapes_of_carried {operands : List Shape} (he : b.exprs.get? id = some e)
    (hoperands : e.inputConnectors.map b.carriedShape = operands.map .ok) :
    b.updateShapes id = ((e.updateShapes operands).1,
      { b with exprs := b.exprs.insert id (e.updateShapes operands).2 }) := by
  rw [updateShapes, expr_eq_ok_iff.mpr he]
  simp only [bind, Except.bind, mapM_eq_ok_iff.mpr hoperands]
  rw [onExpr, expr_eq_ok_iff.mpr he]

/-- What reaches an expression does not depend on the expression itself. -/
theorem Wired.carried_insert (h : Wired b) (he : b.exprs.get? id = some e) (e' : Expression) :
    e.inputConnectors.map (carriedShape { b with exprs := b.exprs.insert id e' }) =
      e.inputConnectors.map b.carriedShape :=
  List.map_congr_left fun _ hc => h.carriedShape_congr (by rfl) he
    (fun _ hp => OrderedMap.get?_insert_of_ne _ _ (h.ne_of_runsBefore hp)) hc

theorem Wired.updateShapes_cases (h : Wired b) (he : b.exprs.get? id = some e) :
    (∃ err, (b.updateShapes id).1 = .error err ∧ (b.updateShapes id).2.Fails id err) ∨
    ((b.updateShapes id).1 = .ok () ∧ (b.updateShapes id).2.Settled id) := by
  obtain ⟨operands, hoperands, hlength⟩ := h.exists_carried he
  rw [updateShapes_of_carried he hoperands]
  rcases Expression.updateShapes_cases hlength with
    ⟨cause, e', hattempt, herr, hdeclined⟩ | ⟨out, e', hattempt, hok, hupdated⟩
  · have hcarried := (h.carried_insert he e').trans hoperands
    rw [herr]
    refine .inl ⟨.shapeInference e.node.name cause, rfl, e', operands, cause,
      expr_eq_ok_iff.mpr (OrderedMap.get?_insert_self ..), ?_, ?_, ?_⟩
    · rw [hdeclined.retouched.inputs, hcarried]
    · rw [hdeclined.retouched.attempt, hattempt]
    · rw [hdeclined.retouched.node]
  · have hcarried := (h.carried_insert he e').trans hoperands
    rw [hok]
    refine .inr ⟨rfl, e', expr_eq_ok_iff.mpr (OrderedMap.get?_insert_self ..), ?_, ?_⟩
    · rw [fed_iff, hupdated.retouched.inputs, hcarried, hupdated.inputShapes]
    · rw [hupdated.retouched.attempt, hupdated.inputShapes, hattempt, hupdated.outputShapes]

/-! ## The pass -/

theorem exprs_updateAll_of_notMem {ids : List ExprId} {other : ExprId} (hother : other ∉ ids) :
    (updateAll b ids).2.exprs.get? other = b.exprs.get? other := by
  induction ids generalizing b with
  | nil => rfl
  | cons id ids ih =>
    rw [List.mem_cons, not_or] at hother
    have hstep : (b.updateShapes id).2.exprs.get? other = b.exprs.get? other :=
      exprs_updateShapes_of_ne hother.1
    rw [updateAll]
    split
    next heq => rw [heq] at hstep; exact hstep
    next heq => rw [heq] at hstep; exact (ih hother.2).trans hstep

/-- The pass settles one expression after the other, up to the first that fails. -/
theorem Wired.updateAll_cases (h : Wired b) (done todo : List ExprId)
    (hsub : (done ++ todo).Sublist b.order) (hdone : ∀ id ∈ done, b.Settled id) :
    (∃ before id after err, todo = before ++ id :: after ∧ (updateAll b todo).1 = .error err ∧
      (∀ other ∈ done ++ before, (updateAll b todo).2.Settled other) ∧
      (updateAll b todo).2.Fails id err) ∨
    ((updateAll b todo).1 = .ok () ∧ ∀ id ∈ done ++ todo, (updateAll b todo).2.Settled id) := by
  -- Along the expressions still to do: those that are done stay settled while the next one changes.
  induction todo generalizing b done with
  | nil => exact .inr ⟨rfl, by rwa [List.append_nil]⟩
  | cons id todo ih =>
    obtain ⟨e, he⟩ : ∃ e, b.exprs.get? id = some e :=
      (h.mem_order id).mp (hsub.subset (List.mem_append_right _ (List.mem_cons_self ..)))
    have hretouched := retouched_updateShapes b id
    -- Nothing that is settled reads the expression.
    have hkeep : ∀ other ∈ done, (b.updateShapes id).2.Settled other := by
      intro other hother
      have hruns : b.RunsBefore other id :=
        ((List.singleton_sublist.mpr hother).append
          (List.singleton_sublist.mpr (List.mem_cons_self ..))).trans hsub
      exact h.settled_congr hretouched.connectors
        (exprs_updateShapes_of_ne (h.ne_of_runsBefore hruns))
        (fun p hp => exprs_updateShapes_of_ne
          (h.ne_of_runsBefore (h.runsBefore_trans hp hruns)))
        (hdone other hother)
    rcases h.updateShapes_cases he with ⟨err, herr, hfails⟩ | ⟨hok, hsettled⟩
    · have hstop : updateAll b (id :: todo) = (.error err, (b.updateShapes id).2) := by
        rw [updateAll]
        split
        next heq => rw [heq] at herr ⊢; rw [← herr]
        next heq => rw [heq] at herr; cases herr
      rw [hstop]
      exact .inl ⟨[], id, todo, err, rfl, rfl, by rwa [List.append_nil], hfails⟩
    · have hnext : updateAll b (id :: todo) = updateAll (b.updateShapes id).2 todo := by
        rw [updateAll]
        split
        next heq => rw [heq] at hok; cases hok
        next heq => rw [heq]
      have hdone' : ∀ other ∈ done ++ [id], (b.updateShapes id).2.Settled other := by
        intro other hother
        rcases List.mem_append.mp hother with hother | hother
        · exact hkeep other hother
        · rw [List.mem_singleton.mp hother]
          exact hsettled
      have hsub' : ((done ++ [id]) ++ todo).Sublist (b.updateShapes id).2.order := by
        rw [hretouched.order, List.append_assoc]
        exact hsub
      rw [hnext]
      rcases ih (h.retouched hretouched) (done ++ [id]) hsub' hdone' with
        ⟨before, next, after, err, rfl, herr, hsettled', hfails⟩ | ⟨hok', hall⟩
      · refine .inl ⟨id :: before, next, after, err, rfl, herr, ?_, hfails⟩
        rwa [List.append_assoc] at hsettled'
      · rw [List.append_assoc] at hall
        exact .inr ⟨hok', hall⟩

/-! ## Parameters and results -/

theorem counts_of_parameter {op : Op} (h : op.side? = some .input) :
    op.inputCount = 0 ∧ op.outputCount = 1 := by
  cases op <;> first | exact ⟨rfl, rfl⟩ | cases h

theorem inputCount_of_result {op : Op} (h : op.side? = some .output) : op.inputCount = 1 := by
  cases op <;> first | rfl | cases h

/-- Nothing flows into a parameter. -/
theorem fed_of_parameter (hside : e.node.op.side? = some .input) : b.Fed e := by
  have hinputs : e.inputs = [] :=
    List.eq_nil_of_length_eq_zero (e.length_inputs.trans (counts_of_parameter hside).1)
  intro w hw
  rw [hinputs] at hw
  cases hw

/-- The listed expressions have got new shapes at their first output, and nothing else changed. -/
structure Overridden (b b' : Body) (pairs : List (ExprId × Shape)) : Prop where
  given : ∀ p ∈ pairs, ∃ e e', b.exprs.get? p.1 = some e ∧
    e.modifyDescriptor .output 0 (·.withShape p.2) = .ok e' ∧ b'.exprs.get? p.1 = some e'
  kept : ∀ other, other ∉ pairs.map Prod.fst → b'.exprs.get? other = b.exprs.get? other

theorem Overridden.shapeAt {pairs : List (ExprId × Shape)} (h : Overridden b b' pairs)
    {shape : Shape} (hp : (id, shape) ∈ pairs) : b'.shapeAt ⟨id, .output, 0⟩ = .ok shape := by
  obtain ⟨e, e', he, hmodify, he'⟩ := h.given _ hp
  rw [Body.shapeAt, descriptor, expr_eq_ok_iff.mpr he']
  exact Expression.shape_of_modifyDescriptor hmodify

/-- Expressions with an output all get the shapes given to them. -/
theorem overrideShapes_ok {pairs : List (ExprId × Shape)} (hnodup : (pairs.map Prod.fst).Nodup)
    (houtput : ∀ p ∈ pairs, ∃ e, b.exprs.get? p.1 = some e ∧ 0 < e.outputs.length) :
    ∃ b', overrideShapes b pairs = (.ok (), b') ∧ Overridden b b' pairs := by
  induction pairs generalizing b with
  | nil => exact ⟨b, rfl, by simp, fun _ _ => rfl⟩
  | cons p pairs ih =>
    obtain ⟨id, shape⟩ := p
    obtain ⟨hfirst, hnodup⟩ := List.nodup_cons.mp hnodup
    obtain ⟨⟨e, he, hlength⟩, houtput⟩ := List.forall_mem_cons.mp houtput
    obtain ⟨e', hmodify⟩ := Expression.modifyDescriptor_ok hlength (·.withShape shape)
    -- The expressions still to come are none that was changed, so they are as at the start.
    have hsame : ∀ p ∈ pairs, OrderedMap.get? (b.exprs.insert id e') p.1 = b.exprs.get? p.1 :=
      fun p hp => OrderedMap.get?_insert_of_ne _ _
        fun heq => hfirst (List.mem_map.mpr ⟨p, hp, heq⟩)
    obtain ⟨b', hrest, hoverridden⟩ := ih (b := { b with exprs := b.exprs.insert id e' }) hnodup
      fun p hp => by rw [hsame p hp]; exact houtput p hp
    refine ⟨b', by rw [overrideShapes, editExpr_ok he hmodify]; exact hrest,
      List.forall_mem_cons.mpr ⟨⟨e, e', he, hmodify, ?_⟩, fun p hp => ?_⟩, fun other hother => ?_⟩
    · rw [hoverridden.kept id hfirst]
      exact OrderedMap.get?_insert_self ..
    · rw [← hsame p hp]
      exact hoverridden.given p hp
    · rw [List.map_cons, List.mem_cons, not_or] at hother
      rw [hoverridden.kept other hother.2]
      exact OrderedMap.get?_insert_of_ne _ _ hother.1

/-- The answer of an inference is what the results see. -/
theorem Coherent.resultShapes_ok (h : Coherent b) : ∃ out, b.resultShapes = .ok out ∧
    (b.boundaryIds .output).map (fun id => b.shapeAt ⟨id, .input, 0⟩) = out.map .ok := by
  have hseen : ∀ p ∈ b.boundary .output, ∃ id shape, p.1.id = some id ∧
      b.shapeAt ⟨id, .input, 0⟩ = .ok shape ∧
      (p.1.descriptor .input 0).map Descriptor.shape = .ok shape := by
    intro p hp
    obtain ⟨id, he, hrole, hside⟩ := h.mem_boundary_iff.mp hp
    have hnode : p.1.node.op.side? = some .output := (h.role_iff he).mpr ⟨p.2, hrole, hside⟩
    obtain ⟨w, hw⟩ : ∃ w, p.1.inputs[0]? = some w :=
      ⟨_, List.getElem?_eq_getElem (by
        rw [p.1.length_inputs, Node.inputCount, inputCount_of_result hnode]; exact Nat.one_pos)⟩
    refine ⟨id, w.descriptor.shape, (h.installed id p.1 he).id, ?_, ?_⟩
    · rw [shapeAt_input_iff he, Expression.inputShapes, List.getElem?_map, hw]
      rfl
    · rw [Expression.descriptor_eq_ok hw]
      rfl
  obtain ⟨out, hout⟩ : ∃ out : List Shape,
      (b.boundary .output).map (fun p => (p.1.descriptor .input 0).map Descriptor.shape) =
        out.map .ok :=
    exists_map_eq_map_ok fun p hp => by
      obtain ⟨-, shape, -, -, hshape⟩ := hseen p hp
      exact ⟨shape, hshape⟩
  refine ⟨out, mapM_eq_ok_iff.mpr hout, hout ▸ ?_⟩
  rw [boundaryIds]
  generalize b.boundary .output = found at hseen
  clear hout
  induction found with
  | nil => rfl
  | cons p found ih =>
    obtain ⟨⟨id, shape, hid, hport, hshape⟩, hseen⟩ := List.forall_mem_cons.mp hseen
    rw [List.filterMap_cons, hid, List.map_cons, List.map_cons, ih hseen, hport, hshape]

/-! ## The whole inference -/

/-- The parameters have the shapes given to them, or, if none are given, those that they had. -/
structure Given (b b' : Body) (params : List ExprId) (shapes : List Shape) : Prop where
  given : ∀ (i : Nat) (id : ExprId) (shape : Shape),
    params[i]? = some id → shapes[i]? = some shape → b'.shapeAt ⟨id, .output, 0⟩ = .ok shape
  kept : shapes = [] → ∀ id ∈ params, b'.shapeAt ⟨id, .output, 0⟩ = b.shapeAt ⟨id, .output, 0⟩

/-- The second body is left by an inference that stopped. -/
structure Stopped (b b' : Body) (params : List ExprId) (shapes : List Shape) (err : IrError) :
    Prop extends Given b b' params shapes where
  first : ∃ before id after, b.order = before ++ id :: after ∧ id ∉ params ∧ b'.Fails id err ∧
    ∀ other ∈ before, other ∉ params → b'.Settled other

/-- The second body is left by an inference that went through. -/
structure Solved (b b' : Body) (params results : List ExprId) (shapes out : List Shape) :
    Prop extends Given b b' params shapes where
  fed : ∀ id e, b'.expr id = .ok e → b'.Fed e
  answered : ∀ id e, b'.expr id = .ok e → id ∉ params → ∃ strategy, e.strategy = some strategy ∧
    strategy e.inputShapes = .ok (.success e.outputShapes)
  results : results.map (fun id => b'.shapeAt ⟨id, .input, 0⟩) = out.map .ok
  checked : b'.checkShapes = .ok ()

theorem Solved.settled {params results : List ExprId} {shapes out : List Shape}
    (h : Solved b b' params results shapes out) (hw : Wired b') (hid : id ∈ b'.order)
    (hparam : id ∉ params) : b'.Settled id := by
  obtain ⟨e, he⟩ := (hw.mem_order id).mp hid
  have hexpr : b'.expr id = .ok e := expr_eq_ok_iff.mpr he
  obtain ⟨strategy, hstrategy, hsuccess⟩ := h.answered id e hexpr hparam
  exact ⟨e, hexpr, h.fed id e hexpr, Expression.attempt_eq_ok_iff.mpr
    ⟨strategy, hstrategy, hsuccess, by rw [Expression.outputShapes, List.length_map]⟩⟩

theorem inferShapes_mismatch {shapes : List Shape} (hne : shapes ≠ [])
    (hlength : shapes.length ≠ b.parameterIds.length) : b.inferShapes shapes =
      (.error (.arityMismatch .graphInputShapes b.parameterIds.length shapes.length), b) := by
  have : (!shapes.isEmpty && shapes.length != b.parameterIds.length) = true := by
    simp [hne, hlength]
  simp only [inferShapes, this, if_true]

theorem Coherent.overrideShapes_ok (h : Coherent b) {shapes : List Shape}
    (hfits : shapes = [] ∨ shapes.length = b.parameterIds.length) :
    ∃ b', overrideShapes b (b.parameterIds.zip shapes) = (.ok (), b') ∧
      Overridden b b' (b.parameterIds.zip shapes) := by
  have hparams : b.ByOrdinal .input b.parameterIds := h.byOrdinal_boundaryIds .input
  have hnodup : ((b.parameterIds.zip shapes).map Prod.fst).Nodup := by
    rcases hfits with rfl | hlength
    · simp
    · rw [List.map_fst_zip (Nat.le_of_eq hlength.symm)]
      exact hparams.nodup
  refine Body.overrideShapes_ok hnodup fun p hp => ?_
  obtain ⟨e, he, hside⟩ := (hparams.mem_iff p.1).mp (List.of_mem_zip hp).1
  have houtputs : e.outputs.length = 1 :=
    e.length_outputs.trans (counts_of_parameter hside).2
  exact ⟨e, expr_eq_ok_iff.mp he, by omega⟩

theorem Overridden.given_zip {params : List ExprId} {shapes : List Shape}
    (h : Overridden b b' (params.zip shapes)) : Given b b' params shapes where
  given i id shape hid hshape :=
    h.shapeAt (List.mem_of_getElem? (List.getElem?_zip_eq_some.mpr ⟨hid, hshape⟩))
  kept hnone id _ := shapeAt_congr (h.kept id (by simp [hnone]))

theorem inferShapes_of_pass {shapes : List Shape} {fed : Body} {outcome : Except IrError Unit}
    (hfits : shapes = [] ∨ shapes.length = b.parameterIds.length)
    (hfed : overrideShapes b (b.parameterIds.zip shapes) = (.ok (), fed))
    (hpass : updateAll fed (fed.order.filter (· ∉ b.parameterIds)) = (outcome, b')) :
    b.inferShapes shapes = (outcome >>= fun _ => b'.resultShapes, b') := by
  have hcount : (!shapes.isEmpty && shapes.length != b.parameterIds.length) = false := by
    rcases hfits with rfl | hlength
    · rfl
    · simp [hlength]
  cases outcome <;>
    simp only [inferShapes, hcount, hfed, hpass, Bool.false_eq_true, if_false, bind, Except.bind]

/-- The stages of an inference over shapes that fit: the parameters get the shapes given to them,
and then a pass brings everything else up to date, as far as it comes. -/
structure Stages (b : Body) (shapes : List Shape) (fed : Body) (outcome : Except IrError Unit)
    (b' : Body) : Prop where
  given : overrideShapes b (b.parameterIds.zip shapes) = (.ok (), fed)
  overridden : Overridden b fed (b.parameterIds.zip shapes)
  pass : updateAll fed (b.order.filter (· ∉ b.parameterIds)) = (outcome, b')
  answer : b.inferShapes shapes = (outcome >>= fun _ => b'.resultShapes, b')

theorem Coherent.stages (h : Coherent b) {shapes : List Shape}
    (hfits : shapes = [] ∨ shapes.length = b.parameterIds.length) :
    ∃ fed outcome b', Stages b shapes fed outcome b' := by
  obtain ⟨fed, hfed, hoverridden⟩ := h.overrideShapes_ok hfits
  have horder : fed.order = b.order := (retouched_of_overrideShapes hfed).order
  obtain ⟨outcome, b', hpass⟩ : ∃ outcome b',
      updateAll fed (fed.order.filter (· ∉ b.parameterIds)) = (outcome, b') := ⟨_, _, rfl⟩
  exact ⟨fed, outcome, b', hfed, hoverridden, horder ▸ hpass, inferShapes_of_pass hfits hfed hpass⟩

section Stages

variable {shapes : List Shape} {fed : Body} {outcome : Except IrError Unit}

theorem Stages.retouched_fed (h : Stages b shapes fed outcome b') : Retouched b fed :=
  retouched_of_overrideShapes h.given

theorem Stages.retouched_pass (h : Stages b shapes fed outcome b') : Retouched fed b' :=
  retouched_of_updateAll h.pass

theorem Stages.retouched (h : Stages b shapes fed outcome b') : Retouched b b' :=
  h.retouched_fed.trans h.retouched_pass

/-- What is no parameter has not been given a shape. -/
theorem Stages.get?_given (h : Stages b shapes fed outcome b') (hid : id ∉ b.parameterIds) :
    fed.exprs.get? id = b.exprs.get? id := by
  refine h.overridden.kept id fun hmem => hid ?_
  obtain ⟨p, hp, rfl⟩ := List.mem_map.mp hmem
  exact (List.of_mem_zip hp).1

/-- The pass leaves the parameters as they were given to it. -/
theorem Stages.get?_param (h : Stages b shapes fed outcome b') (hid : id ∈ b.parameterIds) :
    b'.exprs.get? id = fed.exprs.get? id := by
  have hpass : (updateAll fed (b.order.filter (· ∉ b.parameterIds))).2.exprs.get? id =
      fed.exprs.get? id := exprs_updateAll_of_notMem (by simp [hid])
  rwa [h.pass] at hpass

end Stages

/-- What comes first in a part of a list that a condition selects comes in the whole list after
things that are selected before it or not at all. -/
theorem split_of_filter {α : Type} {p : α → Bool} {l before after : List α} {x : α}
    (h : l.filter p = before ++ x :: after) :
    ∃ l₁ l₂, l = l₁ ++ x :: l₂ ∧ p x = true ∧ ∀ y ∈ l₁, p y = true → y ∈ before := by
  obtain ⟨l₁, rest, rfl, rfl, hrest⟩ := List.filter_eq_append_iff.mp h
  obtain ⟨l₂, l₃, rfl, hskipped, hx, -⟩ := List.filter_eq_cons_iff.mp hrest
  refine ⟨l₁ ++ l₂, l₃, by rw [List.append_assoc], hx, ?_⟩
  intro y hy hp
  rcases List.mem_append.mp hy with hy | hy
  · exact List.mem_filter.mpr ⟨hy, hp⟩
  · exact absurd hp (hskipped y hy)

/-- When all expressions but the parameters are settled, everything is solved. -/
theorem Coherent.solved (h : Coherent b') {params : List ExprId} {shapes : List Shape}
    (hparams : ∀ id ∈ params, ∀ e, b'.exprs.get? id = some e → e.node.op.side? = some .input)
    (hgiven : Given b b' params shapes)
    (hsettled : ∀ id ∈ b'.order, id ∉ params → b'.Settled id) :
    ∃ out, b'.resultShapes = .ok out ∧
      Solved b b' params (b'.boundaryIds .output) shapes out := by
  have hanswer : ∀ id e, b'.exprs.get? id = some e → id ∉ params →
      b'.Fed e ∧ e.attempt e.inputShapes = .ok e.outputShapes := by
    intro id e he hid
    obtain ⟨e', he', hfed, hattempt⟩ := hsettled id ((h.mem_order id).mpr ⟨e, he⟩) hid
    obtain rfl := Option.some.inj (he.symm.trans (expr_eq_ok_iff.mp he'))
    exact ⟨hfed, hattempt⟩
  have hfed : ∀ id e, b'.exprs.get? id = some e → b'.Fed e := by
    intro id e he
    by_cases hid : id ∈ params
    · exact fed_of_parameter (hparams id hid e he)
    · exact (hanswer id e he hid).1
  obtain ⟨out, hout, hseen⟩ := h.resultShapes_ok
  refine ⟨out, hout, { hgiven with
    fed := fun id e he => hfed id e (expr_eq_ok_iff.mp he)
    answered := ?_
    results := hseen
    checked := h.checkShapes_iff.mpr hfed }⟩
  intro id e he hid
  obtain ⟨-, hattempt⟩ := hanswer id e (expr_eq_ok_iff.mp he) hid
  obtain ⟨strategy, hstrategy, hsuccess, -⟩ := Expression.attempt_eq_ok_iff.mp hattempt
  exact ⟨strategy, hstrategy, hsuccess⟩

/-- An inference over shapes that fit stops at the first expression without an answer, or solves
all equations. -/
theorem Coherent.inferShapes_cases (h : Coherent b) {shapes : List Shape}
    (hfits : shapes = [] ∨ shapes.length = b.parameterIds.length) :
    ∃ b', Retouched b b' ∧
      ((∃ err, b.inferShapes shapes = (.error err, b') ∧
        Stopped b b' b.parameterIds shapes err) ∨
      ∃ out, b.inferShapes shapes = (.ok out, b') ∧
        Solved b b' b.parameterIds (b'.boundaryIds .output) shapes out) := by
  obtain ⟨fed, outcome, b', hstages⟩ := h.stages hfits
  have hgiven : Given b fed b.parameterIds shapes := hstages.overridden.given_zip
  have hbefore : Retouched b fed := hstages.retouched_fed
  have hboth : Retouched b b' := hstages.retouched
  have hcases := (h.toWired.retouched hbefore).updateAll_cases []
    (b.order.filter (· ∉ b.parameterIds)) (hbefore.order ▸ List.filter_sublist) (by simp)
  rw [hstages.pass] at hcases
  have hrun := hstages.answer
  -- The pass leaves the parameters out, so they still have the shapes they were given.
  have hkept : ∀ id ∈ b.parameterIds,
      b'.shapeAt ⟨id, .output, 0⟩ = fed.shapeAt ⟨id, .output, 0⟩ :=
    fun id hid => shapeAt_congr (hstages.get?_param hid)
  have hgiven' : Given b b' b.parameterIds shapes :=
    { given := fun i id shape hid hshape =>
        (hkept id (List.mem_of_getElem? hid)).trans (hgiven.given i id shape hid hshape)
      kept := fun hnone id hid => (hkept id hid).trans (hgiven.kept hnone id hid) }
  refine ⟨b', hboth, ?_⟩
  rcases hcases with ⟨before, id, after, err, hsplit, rfl, hsettled, hfails⟩ | ⟨rfl, hsettled⟩
  · left
    obtain ⟨l₁, l₂, horder, hid, hearlier⟩ := split_of_filter hsplit
    refine ⟨err, hrun, { hgiven' with
      first := ⟨l₁, id, l₂, horder, of_decide_eq_true hid, hfails, ?_⟩ }⟩
    intro other hother hnot
    exact hsettled other (hearlier other hother (decide_eq_true hnot))
  · right
    have hparams : ∀ id ∈ b.parameterIds, ∀ e, b'.exprs.get? id = some e →
        e.node.op.side? = some .input := by
      intro id hid e' he'
      obtain ⟨e, he, hee'⟩ := hboth.before he'
      obtain ⟨e₀, he₀, hside⟩ := ((h.byOrdinal_boundaryIds .input).mem_iff id).mp hid
      obtain rfl := Option.some.inj (he.symm.trans (expr_eq_ok_iff.mp he₀))
      rw [hee'.node]
      exact hside
    obtain ⟨out, hout, hsolved⟩ := (h.retouched hboth).solved hparams hgiven' (by
      intro id hid hnot
      rw [hboth.order] at hid
      exact hsettled id (List.mem_filter.mpr ⟨hid, decide_eq_true hnot⟩))
    exact ⟨out, by rw [hrun, ← hout]; rfl, hsolved⟩

/-- The same for any lists that hold the parameters and the results by ordinal. -/
theorem Coherent.outcome (h : Coherent b) {params results : List ExprId}
    (hparams : b.ByOrdinal .input params) (hresults : b.ByOrdinal .output results)
    {shapes : List Shape} (hfits : shapes = [] ∨ shapes.length = params.length) :
    ∃ b', Retouched b b' ∧
      ((∃ err, b.inferShapes shapes = (.error err, b') ∧ Stopped b b' params shapes err) ∨
      ∃ out, b.inferShapes shapes = (.ok out, b') ∧ Solved b b' params results shapes out) := by
  obtain rfl : params = b.parameterIds := hparams.unique (h.byOrdinal_boundaryIds .input)
  obtain ⟨b', hr, hcases⟩ := h.inferShapes_cases hfits
  obtain rfl : results = b'.boundaryIds .output := hresults.unique
    (((h.retouched hr).byOrdinal_boundaryIds .output).retouched hr)
  exact ⟨b', hr, hcases⟩

theorem Coherent.inferShapes_mismatch (h : Coherent b) {params : List ExprId}
    (hparams : b.ByOrdinal .input params) {shapes : List Shape} (hne : shapes ≠ [])
    (hlength : shapes.length ≠ params.length) : (b.inferShapes shapes).1 =
      .error (.arityMismatch .graphInputShapes params.length shapes.length) := by
  obtain rfl : params = b.parameterIds := hparams.unique (h.byOrdinal_boundaryIds .input)
  rw [Body.inferShapes_mismatch hne hlength]

/-- An inference that answers has solved the equations. -/
theorem Coherent.solved_of_ok (h : Coherent b) {params results : List ExprId}
    (hparams : b.ByOrdinal .input params) (hresults : b.ByOrdinal .output results)
    {shapes out : List Shape} (hfits : shapes = [] ∨ shapes.length = params.length)
    (hok : (b.inferShapes shapes).1 = .ok out) :
    Retouched b (b.inferShapes shapes).2 ∧
      Solved b (b.inferShapes shapes).2 params results shapes out := by
  obtain ⟨b', hr, ⟨err, heq, -⟩ | ⟨found, heq, hsolved⟩⟩ := h.outcome hparams hresults hfits
  · rw [heq] at hok
    cases hok
  · rw [heq] at hok ⊢
    obtain rfl := Except.ok.inj hok
    exact ⟨hr, hsolved⟩

/-- In every body that can come about and with any provider of strategies, inference over a number
of shapes that does not fit is refused. Otherwise it solves the shape equations, or it stops at the
first expression, parameters aside, whose strategy has no answer for the shapes that reach it. -/
theorem inferShapes_of_reachable (h : Reachable b) (shapes : List Shape) :
    ∃ params results, b.ByOrdinal .input params ∧ b.ByOrdinal .output results ∧
      ((b.inferShapes shapes).1 =
          .error (.arityMismatch .graphInputShapes params.length shapes.length) ↔
        shapes ≠ [] ∧ shapes.length ≠ params.length) ∧
      (shapes = [] ∨ shapes.length = params.length →
        (∃ err, (b.inferShapes shapes).1 = .error err ∧
          Stopped b (b.inferShapes shapes).2 params shapes err) ∨
        ∃ out, (b.inferShapes shapes).1 = .ok out ∧
          Solved b (b.inferShapes shapes).2 params results shapes out) := by
  have hc := h.coherent
  have hparams : b.ByOrdinal .input b.parameterIds := hc.byOrdinal_boundaryIds .input
  by_cases hfits : shapes = [] ∨ shapes.length = b.parameterIds.length
  · obtain ⟨b', hretouched, hcases⟩ := hc.inferShapes_cases hfits
    have hresults : b.ByOrdinal .output (b'.boundaryIds .output) :=
      ((hc.retouched hretouched).byOrdinal_boundaryIds .output).retouched hretouched
    refine ⟨b.parameterIds, b'.boundaryIds .output, hparams, hresults, ?_, fun _ => ?_⟩
    · refine ⟨fun herr => ?_, fun ⟨hne, hlength⟩ => ?_⟩
      · rcases hcases with ⟨err, heq, hstopped⟩ | ⟨out, heq, -⟩
        · obtain ⟨before, id, after, -, -, ⟨e, operands, cause, -, -, -, rfl⟩, -⟩ := hstopped.first
          rw [heq] at herr
          cases herr
        · rw [heq] at herr
          cases herr
      · exact (hfits.elim hne hlength).elim
    · rcases hcases with ⟨err, heq, hstopped⟩ | ⟨out, heq, hsolved⟩
      · rw [heq]
        exact .inl ⟨err, rfl, hstopped⟩
      · rw [heq]
        exact .inr ⟨out, rfl, hsolved⟩
  · have hmismatch := not_or.mp hfits
    refine ⟨b.parameterIds, b.boundaryIds .output, hparams, hc.byOrdinal_boundaryIds .output,
      ⟨fun _ => hmismatch, fun _ => ?_⟩, fun hfits' => absurd hfits' hfits⟩
    rw [inferShapes_mismatch hmismatch.1 hmismatch.2]

/-- A result sees the shape that its parameter was given. -/
theorem inferShapes_echo : Reachable echo ∧
    (echo.inferShapes [⟨[.dynamic]⟩]).1 = .ok [⟨[.dynamic]⟩] ∧
    ∃ params results, echo.ByOrdinal .input params ∧ echo.ByOrdinal .output results ∧
      ((echo.inferShapes [⟨[.dynamic]⟩]).1 =
          .error (.arityMismatch .graphInputShapes params.length 1) ↔
        [(⟨[.dynamic]⟩ : Shape)] ≠ [] ∧ 1 ≠ params.length) := by
  obtain ⟨params, results, hparams, hresults, hrefused, -⟩ :=
    inferShapes_of_reachable reachable_echo [⟨[.dynamic]⟩]
  exact ⟨reachable_echo, by decide +kernel, params, results, hparams, hresults, hrefused⟩

end TensorIR.Body
