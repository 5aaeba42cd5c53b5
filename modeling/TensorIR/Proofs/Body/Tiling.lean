import TensorIR.Proofs.Body.History
import TensorIR.Proofs.Body.Refreshing

/-!
# Layouts and blocks over a history of inferences

A call that infers shapes gives each descriptor of a body a shape at most once, however it ends
(`Coherent.recast_after`): a pass comes to each expression once, and the parameters, which have been
given their shapes before, it leaves out. So what such a call does to the layout and the block at a
port is what one new shape does to them.

A body that comes from a model starts with every layout in order and every block whole. As long as
nobody chooses a layout or a block, the layouts stay in order. A block does not stay whole. It is
renewed with the rank and only then, so it is the block of the shape that the port had when it got
the rank it has now (`Untiled.tiling_run`).
-/

set_option autoImplicit false

namespace TensorIR.Body

variable {b b₁ b' : Body} {id : ExprId} {ids : List ExprId} {port : Port} {d d' : Descriptor}

/-! ## Shapes given once -/

/-- Each descriptor of the second body is one of the first, with another shape or without. -/
def Recast (b b' : Body) : Prop :=
  ∀ id e', b'.exprs.get? id = some e' → ∃ e, b.exprs.get? id = some e ∧ e.Recast e'

theorem Recast.refl (b : Body) : Recast b b := fun _ e he => ⟨e, he, .refl e⟩

/-- Two changes in a row give shapes once if no expression is changed by both. -/
theorem Recast.andThen (h : Recast b b₁) (h' : Recast b₁ b')
    (honce : ∀ id, b₁.exprs.get? id = b.exprs.get? id ∨ b'.exprs.get? id = b₁.exprs.get? id) :
    Recast b b' := by
  intro id e' he'
  cases honce id with
  | inl hfirst =>
    obtain ⟨e, he, hee'⟩ := h' id e' he'
    exact ⟨e, hfirst ▸ he, hee'⟩
  | inr hsecond => exact h id e' (hsecond ▸ he')

theorem recast_insert {e e' : Expression} (he : b.exprs.get? id = some e) (h : e.Recast e') :
    Recast b { b with exprs := b.exprs.insert id e' } := by
  intro other x hx
  dsimp only at hx
  rw [OrderedMap.get?_insert] at hx
  by_cases hid : other = id
  · subst hid
    rw [if_pos rfl] at hx
    obtain rfl := Option.some.inj hx
    exact ⟨e, he, h⟩
  · rw [if_neg hid] at hx
    exact ⟨x, hx, .refl x⟩

theorem recast_feed (b : Body) (id : ExprId) (operands : List Shape) :
    Recast b (b.onExpr id (·.updateShapes operands)).2 := by
  rcases onExpr_cases b id (·.updateShapes operands) with ⟨err, heq⟩ | ⟨e, he, heq⟩
  · rw [heq]
    exact .refl b
  · rw [heq]
    exact recast_insert he (Expression.recast_updateShapes e operands)

theorem recast_updateShapes (b : Body) (id : ExprId) : Recast b (b.updateShapes id).2 := by
  unfold updateShapes
  split
  · exact .refl b
  · exact recast_feed b id _

theorem recast_updateAll (hnodup : ids.Nodup) (b : Body) : Recast b (updateAll b ids).2 := by
  induction ids generalizing b with
  | nil => exact .refl b
  | cons id ids ih =>
    obtain ⟨hid, hnodup⟩ := List.nodup_cons.mp hnodup
    have hstep := recast_updateShapes b id
    have hothers : ∀ other, other ≠ id →
        (b.updateShapes id).2.exprs.get? other = b.exprs.get? other :=
      fun other hne => exprs_updateShapes_of_ne hne
    rw [updateAll]
    split
    next heq => rw [heq] at hstep; exact hstep
    next b₁ heq =>
      rw [heq] at hstep hothers
      refine hstep.andThen (ih hnodup b₁) fun other => ?_
      by_cases hother : other = id
      · exact .inr (exprs_updateAll_of_notMem (hother ▸ hid))
      · exact .inl (hothers other hother)

theorem Overridden.recast {pairs : List (ExprId × Shape)} (h : Overridden b b' pairs) :
    Recast b b' := by
  intro id e' he'
  by_cases hmem : id ∈ pairs.map Prod.fst
  · obtain ⟨p, hp, rfl⟩ := List.mem_map.mp hmem
    obtain ⟨e, given, he, hmodify, hgiven⟩ := h.given p hp
    obtain rfl := Option.some.inj (hgiven.symm.trans he')
    exact ⟨e, he, Expression.recast_modifyDescriptor hmodify⟩
  · rw [h.kept id hmem] at he'
    exact ⟨e', he', .refl e'⟩

/-- What has been given a shape as a parameter is left out by the pass. -/
theorem Stages.recast {shapes : List Shape} {fed : Body} {outcome : Except IrError Unit}
    (h : Stages b shapes fed outcome b') (hb : Wired b) : Recast b b' := by
  have hpass : Recast fed (updateAll fed (b.order.filter (· ∉ b.parameterIds))).2 :=
    recast_updateAll (hb.nodup.filter _) fed
  rw [h.pass] at hpass
  refine h.overridden.recast.andThen hpass fun id => ?_
  by_cases hparam : id ∈ b.parameterIds
  · exact .inr (h.get?_param hparam)
  · exact .inl (h.get?_given hparam)

theorem Coherent.recast_inferShapes (h : Coherent b) (shapes : List Shape) :
    Recast b (b.inferShapes shapes).2 := by
  by_cases hfits : shapes = [] ∨ shapes.length = b.parameterIds.length
  · obtain ⟨fed, outcome, b', hstages⟩ := h.stages hfits
    rw [hstages.answer]
    exact hstages.recast h.toWired
  · obtain ⟨hne, hlength⟩ := not_or.mp hfits
    rw [Body.inferShapes_mismatch hne hlength]
    exact .refl b

/-- Whatever infers shapes gives each descriptor a shape at most once. -/
theorem Coherent.recast_after (h : Coherent b) {action : Action} (hinfers : action.InfersShapes) :
    Recast b (b.after action) := by
  cases action with
  | updateShapes id => exact recast_updateShapes b id
  | inferShapes shapes => exact h.recast_inferShapes shapes
  | feed id operands => exact recast_feed b id operands
  | insert | push | remove | replaceInput | initEmitters | edit => cases hinfers

/-! ## At a port -/

theorem descriptor_eq_ok_iff : b.descriptor port = .ok d ↔ ∃ e w,
    b.exprs.get? port.expr = some e ∧ (e.ports port.direction)[port.index]? = some w ∧
      w.descriptor = d := by
  rw [descriptor, bind_eq_ok_iff]
  simp only [expr_eq_ok_iff, Expression.descriptor, map_eq_ok_iff, Expression.wire]
  refine exists_congr fun e => ?_
  cases (e.ports port.direction)[port.index]? <;> simp

theorem Recast.before (h : Recast b b') (hd : b'.descriptor port = .ok d') :
    ∃ d, b.descriptor port = .ok d ∧ d.Recast d' := by
  obtain ⟨e', w', he', hw', rfl⟩ := descriptor_eq_ok_iff.mp hd
  obtain ⟨e, he, hee'⟩ := h _ e' he'
  obtain ⟨w, hw, hww'⟩ := hee' _ _ w' hw'
  exact ⟨w.descriptor, descriptor_eq_ok_iff.mpr ⟨e, w, he, hw, rfl⟩, hww'⟩

/-- Passes leave all ports in place. -/
theorem Retouched.exists_descriptor (h : Retouched b b') (hd : b.descriptor port = .ok d) :
    ∃ d', b'.descriptor port = .ok d' := by
  obtain ⟨e, w, he, hw, rfl⟩ := descriptor_eq_ok_iff.mp hd
  obtain ⟨e', he', hee'⟩ := h.after he
  have hports : ((e'.ports port.direction).map Wire.connector)[port.index]? =
      ((e.ports port.direction).map Wire.connector)[port.index]? := by
    cases port.direction with
    | input => exact congrArg (·[port.index]?) hee'.inputs
    | output => exact congrArg (·[port.index]?) hee'.outputs
  rw [List.getElem?_map, List.getElem?_map, hw] at hports
  obtain ⟨w', hw', -⟩ := Option.map_eq_some_iff.mp hports
  exact ⟨w'.descriptor, descriptor_eq_ok_iff.mpr ⟨e', w', he', hw', rfl⟩⟩

theorem shapeAt_of_descriptor (hd : b.descriptor port = .ok d) : b.shapeAt port = .ok d.shape := by
  rw [shapeAt, hd]
  rfl

/-! ## Nobody has chosen anything -/

/-- All descriptors are as their shapes alone would make them. -/
def Untiled (b : Body) : Prop :=
  ∀ id e, b.exprs.get? id = some e → ∀ direction, ∀ w ∈ e.ports direction,
    w.descriptor = .ofShape w.descriptor.shape

theorem untiled_wires {connectors : List ConnectorId} {shapes : List Shape} :
    ∀ w ∈ Expression.wires connectors shapes, w.descriptor = .ofShape w.descriptor.shape := by
  intro w hw
  obtain ⟨i, hi⟩ := List.mem_iff_getElem?.mp hw
  rw [Expression.wires, List.getElem?_zipWith_eq_some] at hi
  obtain ⟨c, shape, -, -, rfl⟩ := hi
  rfl

theorem Untiled.push (h : Untiled b) (node : Node) (inputs : List ConnectorId) :
    Untiled (b.push node inputs).2 := by
  rw [Body.push]
  rcases insert_cases b b.order.length node inputs with
    ⟨err, -, heq⟩ | ⟨-, -, heq⟩ | ⟨-, -, e, b', heq, hinserted⟩
  · rw [heq]
    exact h
  · rw [heq]
    exact h
  · rw [heq]
    intro id e' he' direction w hw
    rcases hinserted.expr_cases he' with ⟨-, rfl⟩ | ⟨-, he'⟩
    · cases direction with
      | input =>
        rw [Expression.ports, hinserted.made.inputs] at hw
        exact untiled_wires w hw
      | output =>
        rw [Expression.ports, hinserted.made.outputs] at hw
        exact untiled_wires w hw
    · exact h id e' he' direction w hw

theorem untiled_ofModel {m : Model} {provider : Option Provider} (h : ofModel m provider = .ok b) :
    Untiled b :=
  lowerNodes_keeps (fun _ node inputs hb => hb.push node inputs)
    (fun id e he => by simp [empty] at he) h

theorem Untiled.descriptor (h : Untiled b) (hd : b.descriptor port = .ok d) :
    d = .ofShape d.shape := by
  obtain ⟨e, w, he, hw, rfl⟩ := descriptor_eq_ok_iff.mp hd
  exact h _ e he _ w (List.mem_of_getElem? hw)

/-! ## Since when a port has its rank -/

/-- The port got its rank with the last of the earlier calls, or had it at the start, and has kept
it during the later ones. The shape is the one that it had then. -/
structure RankedSince (b : Body) (port : Port) (earlier later : List Action) (shape : Shape) :
    Prop where
  found : (b.run earlier).shapeAt port = .ok shape
  got : ∀ before last old, earlier = before ++ [last] →
    (b.run before).shapeAt port = .ok old → old.rank ≠ shape.rank
  kept : ∀ part other, part <+: later →
    (b.run (earlier ++ part)).shapeAt port = .ok other → other.rank = shape.rank

theorem run_concat (b : Body) (calls : List Action) (last : Action) :
    b.run (calls ++ [last]) = (b.run calls).after last := List.foldl_append

theorem rankedSince_start (hd : b.descriptor port = .ok d) : RankedSince b port [] [] d.shape where
  found := shapeAt_of_descriptor hd
  got before last old h := absurd h.symm (by simp)
  kept part other hpart hother := by
    obtain rfl := List.prefix_nil.mp hpart
    exact congrArg Shape.rank (Except.ok.inj (hother.symm.trans (shapeAt_of_descriptor hd)))

section

variable {calls earlier later : List Action} {last : Action} {shape : Shape}

/-- A call that changes the rank is one since which the port has its rank. -/
theorem rankedSince_change (hd : (b.run calls).descriptor port = .ok d)
    (hd' : (b.run (calls ++ [last])).descriptor port = .ok d')
    (hrank : d'.shape.rank ≠ d.shape.rank) :
    RankedSince b port (calls ++ [last]) [] d'.shape where
  found := shapeAt_of_descriptor hd'
  got before last' old h hold := by
    obtain ⟨rfl, -⟩ := List.append_inj' h rfl
    obtain rfl := Except.ok.inj (hold.symm.trans (shapeAt_of_descriptor hd))
    exact hrank.symm
  kept part other hpart hother := by
    obtain rfl := List.prefix_nil.mp hpart
    rw [List.append_nil, shapeAt_of_descriptor hd'] at hother
    rw [Except.ok.inj hother]

/-- A call that keeps the rank is one more of those that do. -/
theorem RankedSince.keep (h : RankedSince b port earlier later shape)
    (hd : (b.run (earlier ++ later)).descriptor port = .ok d)
    (hd' : (b.run (earlier ++ later ++ [last])).descriptor port = .ok d')
    (hrank : d'.shape.rank = d.shape.rank) :
    RankedSince b port earlier (later ++ [last]) shape where
  found := h.found
  got := h.got
  kept part other hpart hother := by
    rcases List.prefix_concat_iff.mp hpart with rfl | hpart
    · rw [← List.append_assoc, shapeAt_of_descriptor hd'] at hother
      rw [← Except.ok.inj hother, hrank]
      exact h.kept later d.shape (List.prefix_refl later) (shapeAt_of_descriptor hd)
    · exact h.kept part other hpart hother

/-- As long as nothing but shapes is set, layouts are in order, and a block is whole for the shape
with which the port got its rank. -/
theorem Untiled.tiling_run (h : Untiled b) (hb : Reachable b)
    (hcalls : ∀ call ∈ calls, call.InfersShapes) (hd : (b.run calls).descriptor port = .ok d) :
    d.layout = Descriptor.planar d.shape.rank ∧ ∃ earlier later shape, calls = earlier ++ later ∧
      RankedSince b port earlier later shape ∧ d.subtensor = shape.dims := by
  -- From the last call back: it has given the port a shape at most once.
  induction calls using List.reverseRecOn generalizing d with
  | nil =>
    have hwhole := h.descriptor hd
    refine ⟨congrArg Descriptor.layout hwhole, [], [], d.shape, rfl, rankedSince_start hd, ?_⟩
    exact congrArg Descriptor.subtensor hwhole
  | append_singleton calls last ih =>
    obtain ⟨hcalls, hlast⟩ := List.forall_mem_append.mp hcalls
    have hstep : Recast (b.run calls) (b.run (calls ++ [last])) := by
      rw [run_concat]
      exact (hb.run calls).coherent.recast_after (hlast last (List.mem_singleton_self last))
    obtain ⟨old, hold, hrecast⟩ := hstep.before hd
    obtain ⟨hplanar, earlier, later, shape, hsplit, hsince, hblock⟩ := ih hcalls hold
    have hfits : old.Fits := by rw [Descriptor.Fits, hplanar, Descriptor.length_planar]
    have hretiled := hrecast.retiled hfits
    by_cases hrank : d.shape.rank = old.shape.rank
    · obtain ⟨hlayout, hsubtensor⟩ := hretiled.kept (not_not_intro hrank)
      subst hsplit
      refine ⟨by rw [hlayout, hplanar, hrank], earlier, later ++ [last], shape,
        List.append_assoc .., hsince.keep hold hd hrank, hsubtensor.trans hblock⟩
    · obtain ⟨hlayout, hsubtensor⟩ := hretiled.fresh hrank
      exact ⟨hlayout, calls ++ [last], [], d.shape, (List.append_nil _).symm,
        rankedSince_change hold hd hrank, hsubtensor⟩

end

/-- Let a model be lowered with any provider of strategies, and then shapes be inferred, of single
expressions and of the whole body, any number of times and with or without success. Then every
layout is in order at every port, and every block is whole for a shape that the port has had: the
one with which it got the rank that it has. -/
theorem tiling_after_inferences {m : Model} {provider : Option Provider}
    (hlowered : ofModel m provider = .ok b) {calls : List Action}
    (hcalls : ∀ call ∈ calls, call.InfersShapes) (hd : (b.run calls).descriptor port = .ok d) :
    d.layout = Descriptor.planar d.shape.rank ∧ ∃ earlier later shape, calls = earlier ++ later ∧
      RankedSince b port earlier later shape ∧ d.subtensor = shape.dims :=
  (untiled_ofModel hlowered).tiling_run (.lowered hlowered) hcalls hd

/-- The model of a matrix that is passed on as it is. -/
def passedOnModel : Model where
  nodes := [
    ⟨.make "x" (.parameter twoByThree), []⟩,
    ⟨.make "result_1" .result, [⟨0, 0⟩]⟩]

theorem ofModel_passedOn : ofModel passedOnModel none = .ok passedOn := rfl

/-- A larger matrix has a block of the size of the smaller one, without anybody having chosen it. -/
theorem block_outlives_shape :
    ofModel passedOnModel none = .ok passedOn ∧
      (passedOn.run [.inferShapes [fourByFive]]).descriptor ⟨⟨0⟩, .output, 0⟩ =
        .ok ⟨fourByFive, [0, 1], twoByThree.dims, none⟩ ∧
      twoByThree.dims ≠ fourByFive.dims := by
  have hd : enlarged.descriptor ⟨⟨0⟩, .output, 0⟩ =
      .ok ⟨fourByFive, [0, 1], twoByThree.dims, none⟩ := by
    rw [enlarged_eq]
    rfl
  exact ⟨ofModel_passedOn, hd, by decide⟩

/-- Over a change of the rank and another inference that keeps it, the block at the parameter is the
one of the first shape of that rank. -/
theorem tiling_after_inferences_passedOn :
    let calls : List Action :=
      [.inferShapes [⟨[.static 7]⟩], .inferShapes [⟨[.dynamic]⟩], .updateShapes ⟨1⟩]
    let d : Descriptor := ⟨⟨[.dynamic]⟩, [0], [.static 7], none⟩
    ofModel passedOnModel none = .ok passedOn ∧ (∀ call ∈ calls, call.InfersShapes) ∧
      (passedOn.run calls).descriptor ⟨⟨0⟩, .output, 0⟩ = .ok d ∧
      d.layout = Descriptor.planar d.shape.rank ∧
      ∃ earlier later shape, calls = earlier ++ later ∧
        RankedSince passedOn ⟨⟨0⟩, .output, 0⟩ earlier later shape ∧ d.subtensor = shape.dims := by
  intro calls d
  have hcalls : ∀ call ∈ calls, call.InfersShapes := by simp [calls, Action.InfersShapes]
  have hd : (passedOn.run calls).descriptor ⟨⟨0⟩, .output, 0⟩ = .ok d := by
    simp only [calls, run, List.foldl_cons, List.foldl_nil, after, inferShapes, parameterIds,
      resultShapes, boundary_eq_insertionSort]
    rfl
  exact ⟨ofModel_passedOn, hcalls, hd, tiling_after_inferences ofModel_passedOn hcalls hd⟩

/-! ## What the ranks decide -/

/-- Let a descriptor be made from a shape and any parts of it be set after that, in any order. A new
shape then starts layout and block afresh if it has another rank than the layout lists axes, and
otherwise leaves them as they are; the register stays. For all new shapes this is the same as to go
by the rank of the old shape exactly if no layout was chosen since a shape was given last, or one
that lists as many axes as the shape has. Where a body has the descriptor at a port, a call that
infers shapes leaves it as it is or gives it a new shape. -/
theorem tiling_after_settings (start : Shape) (settings : List Descriptor.Setting) :
    let d := (Descriptor.ofShape start).after settings
    (∀ shape, (d.withShape shape).shape = shape ∧
      Descriptor.Retiled (shape.rank ≠ d.layout.length) d (d.withShape shape)) ∧
    ((∀ shape : Shape, Descriptor.Retiled (shape.rank ≠ d.shape.rank) d (d.withShape shape)) ↔
      ∀ axes, Descriptor.chosenLayout? settings = some axes → axes.length = d.shape.rank) ∧
    ∀ (b : Body) (action : Action) (port : Port), Reachable b → action.InfersShapes →
      b.descriptor port = .ok d → ∃ d', (b.after action).descriptor port = .ok d' ∧
        (d' = d ∨ d' = d.withShape d'.shape) := by
  intro d
  refine ⟨fun shape => ⟨d.shape_withShape shape, d.retiled_withShape shape⟩, ?_, ?_⟩
  · rw [Descriptor.retiled_iff_fits]
    exact Descriptor.fits_after_iff start settings
  · intro b action port hb hinfers hd
    obtain ⟨d', hd'⟩ := (hinfers.retouched b).exists_descriptor hd
    obtain ⟨old, hold, hrecast⟩ := (hb.coherent.recast_after hinfers).before hd'
    obtain rfl := Except.ok.inj (hd.symm.trans hold)
    exact ⟨d', hd', hrecast⟩

/-- Where a layout for a matrix lists three axes, a shape with three axes keeps it, and with it a
block that has only two. -/
theorem withShape_keeps_unfit_layout :
    let d := (Descriptor.ofShape twoByThree).after [.layout [2, 1, 0]]
    let d' := d.withShape ⟨[.static 4, .static 5, .static 6]⟩
    d'.shape.rank ≠ d.shape.rank ∧ d'.layout = [2, 1, 0] ∧ d'.subtensor = twoByThree.dims ∧
      ¬ Descriptor.Retiled (d'.shape.rank ≠ d.shape.rank) d d' := by
  intro d d'
  have hrank : d'.shape.rank ≠ d.shape.rank := by decide
  refine ⟨hrank, rfl, rfl, fun hretiled => ?_⟩
  exact absurd (hretiled.fresh hrank).1 (by decide)

/-- A matrix that someone has laid out by columns. -/
def turned : Body :=
  passedOn.after (.edit ⟨0⟩ (.descriptor .output 0 fun d => { d with layout := [1, 0] }))

theorem reachable_turned : Reachable turned := reachable_passedOn.step _

/-- It is laid out by columns also after it has got another size. -/
theorem tiling_after_settings_turned :
    let d := (Descriptor.ofShape twoByThree).after [.layout [1, 0]]
    Reachable turned ∧ turned.descriptor ⟨⟨0⟩, .output, 0⟩ = .ok d ∧
      ∃ d', (turned.after (.inferShapes [fourByFive])).descriptor ⟨⟨0⟩, .output, 0⟩ = .ok d' ∧
        d'.shape = fourByFive ∧ d'.layout = [1, 0] := by
  intro d
  obtain ⟨-, hranks, hinferences⟩ := tiling_after_settings twoByThree [.layout [1, 0]]
  have hd : turned.descriptor ⟨⟨0⟩, .output, 0⟩ = .ok d := by
    rfl
  have hshape : (turned.after (.inferShapes [fourByFive])).shapeAt
      ⟨⟨0⟩, .output, 0⟩ = .ok fourByFive := by
    simp only [after, inferShapes, parameterIds, resultShapes, boundary_eq_insertionSort]
    rfl
  -- The layout that was chosen lists two axes, and the matrix has two.
  have hlaw := hranks.mpr fun axes haxes => by
    obtain rfl : [1, 0] = axes := Option.some.inj haxes
    rfl
  obtain ⟨d', hd', hrecast⟩ := hinferences turned (.inferShapes [fourByFive])
    ⟨⟨0⟩, .output, 0⟩ reachable_turned trivial hd
  rw [shapeAt_of_descriptor hd'] at hshape
  have hnew : d'.shape = fourByFive := Except.ok.inj hshape
  refine ⟨reachable_turned, hd, d', hd', hnew, ?_⟩
  cases hrecast with
  | inl hsame => rw [hsame]; rfl
  | inr hgiven =>
    rw [hnew] at hgiven
    rw [hgiven]
    exact ((hlaw fourByFive).kept (by decide)).1

end TensorIR.Body
