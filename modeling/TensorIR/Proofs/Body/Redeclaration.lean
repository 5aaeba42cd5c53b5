import TensorIR.Proofs.Body.Mirroring
import TensorIR.Proofs.Model.Building

/-!
# Giving shapes is declaring them

Shapes for the parameters can be given when inference is started, or they can be declared by the
program in the first place. It comes to the same (`inferShapes_redeclared`): both inferences answer
alike and leave the same shapes everywhere, or both stop at the same expression for the same cause.

The two ways write a parameter's shape at different times, one when the body is lowered and the
other just before the pass. From then on the bodies correspond, expression by expression, under
their own numbers.
-/

set_option autoImplicit false

namespace TensorIR

namespace Model

/-! ## Declaring other shapes -/

/-- The node at a position, declared with the shape for its ordinal if it is a parameter. -/
def redeclareAt (nodes : List ModelNode) (shapes : List Shape) (k : Nat) (n : ModelNode) :
    ModelNode :=
  match n.node.op, shapes[boundaryBefore nodes k .input]? with
  | .parameter _, some shape => { n with node := .make n.node.name (.parameter shape) }
  | _, _ => n

/-- The model with the given shapes declared for its parameters, in order. -/
def redeclared (m : Model) (shapes : List Shape) : Model :=
  ⟨m.nodes.mapIdx (redeclareAt m.nodes shapes)⟩

variable {m : Model} {nodes : List ModelNode} {shapes : List Shape} {k : Nat} {n : ModelNode}
  {shape : Shape}

theorem getElem?_redeclared (m : Model) (shapes : List Shape) (k : Nat) :
    (m.redeclared shapes).nodes[k]? = m.nodes[k]?.map (redeclareAt m.nodes shapes k) :=
  List.getElem?_mapIdx ..

theorem length_redeclared (m : Model) (shapes : List Shape) :
    (m.redeclared shapes).nodes.length = m.nodes.length := List.length_mapIdx ..

theorem redeclareAt_cases (nodes : List ModelNode) (shapes : List Shape) (k : Nat)
    (n : ModelNode) :
    (∃ shape, n.node.op.side? = some .input ∧
      shapes[boundaryBefore nodes k .input]? = some shape ∧
      redeclareAt nodes shapes k n = { n with node := .make n.node.name (.parameter shape) }) ∨
    redeclareAt nodes shapes k n = n := by
  unfold redeclareAt
  split
  next shape' shape hop hshape =>
    refine .inl ⟨shape, ?_, hshape, rfl⟩
    rw [hop]
    rfl
  next => exact .inr rfl

theorem redeclareAt_of_parameter (hside : n.node.op.side? = some .input)
    (hshape : shapes[boundaryBefore nodes k .input]? = some shape) :
    redeclareAt nodes shapes k n = { n with node := .make n.node.name (.parameter shape) } := by
  cases hop : n.node.op with
  | parameter declared => simp only [redeclareAt, hop, hshape]
  | _ =>
    rw [hop] at hside
    cases hside

theorem redeclareAt_of_not_parameter (hside : n.node.op.side? ≠ some .input) :
    redeclareAt nodes shapes k n = n := by
  rcases redeclareAt_cases nodes shapes k n with ⟨shape, hparam, -⟩ | heq
  · exact absurd hparam hside
  · exact heq

theorem inputs_redeclareAt (nodes : List ModelNode) (shapes : List Shape) (k : Nat)
    (n : ModelNode) : (redeclareAt nodes shapes k n).inputs = n.inputs := by
  rcases redeclareAt_cases nodes shapes k n with ⟨shape, -, -, heq⟩ | heq <;> rw [heq]

theorem side_redeclareAt (nodes : List ModelNode) (shapes : List Shape) (k : Nat)
    (n : ModelNode) : (redeclareAt nodes shapes k n).node.op.side? = n.node.op.side? := by
  rcases redeclareAt_cases nodes shapes k n with ⟨shape, hside, -, heq⟩ | heq
  · rw [heq, hside]
    rfl
  · rw [heq]

theorem counts_redeclareAt (nodes : List ModelNode) (shapes : List Shape) (k : Nat)
    (n : ModelNode) :
    (redeclareAt nodes shapes k n).node.inputCount = n.node.inputCount ∧
      (redeclareAt nodes shapes k n).node.outputCount = n.node.outputCount := by
  rcases redeclareAt_cases nodes shapes k n with ⟨shape, hside, -, heq⟩ | heq
  · obtain ⟨hinputs, houtputs⟩ := Body.counts_of_parameter hside
    rw [heq]
    exact ⟨hinputs.symm, houtputs.symm⟩
  · rw [heq]
    exact ⟨rfl, rfl⟩

/-- Nodes keep their places, and all but the parameters stay what they are. -/
theorem embeds_redeclared (m : Model) (shapes : List Shape) (provider : Option Provider) :
    Embeds id provider m.nodes (m.redeclared shapes).nodes := by
  intro k n hn
  refine ⟨redeclareAt m.nodes shapes k n, by rw [id, getElem?_redeclared, hn]; rfl, ?_,
    side_redeclareAt .., fun hside => ?_, fun hside => ?_⟩
  · rw [inputs_redeclareAt]
    exact (List.map_id _).symm
  · rw [redeclareAt_of_not_parameter hside]
  · rw [redeclareAt_of_not_parameter hside]

theorem embeds_of_redeclared (m : Model) (shapes : List Shape) (provider : Option Provider) :
    Embeds id provider (m.redeclared shapes).nodes m.nodes := by
  intro k n' hn'
  rw [getElem?_redeclared, Option.map_eq_some_iff] at hn'
  obtain ⟨n, hn, rfl⟩ := hn'
  refine ⟨n, hn, ?_, (side_redeclareAt ..).symm, fun hside => ?_, fun hside => ?_⟩
  · rw [inputs_redeclareAt]
    exact (List.map_id _).symm
  · rw [side_redeclareAt] at hside
    rw [redeclareAt_of_not_parameter hside]
  · rw [side_redeclareAt] at hside
    rw [redeclareAt_of_not_parameter hside]

theorem WellFormed.redeclared (h : m.WellFormed) (shapes : List Shape) :
    (m.redeclared shapes).WellFormed := by
  intro k n' hn'
  rw [getElem?_redeclared, Option.map_eq_some_iff] at hn'
  obtain ⟨n, hn, rfl⟩ := hn'
  obtain ⟨harity, hrefs⟩ := h k n hn
  rw [inputs_redeclareAt, (counts_redeclareAt ..).1]
  refine ⟨harity, fun ref href => ?_⟩
  obtain ⟨producer, hproducer, hport⟩ := hrefs ref href
  rw [List.getElem?_take, Option.ite_none_right_eq_some] at hproducer
  obtain ⟨hlt, hproducer⟩ := hproducer
  refine ⟨redeclareAt m.nodes shapes ref.node producer, ?_, by rwa [(counts_redeclareAt ..).2]⟩
  rw [List.getElem?_take, if_pos hlt, getElem?_redeclared, hproducer]
  rfl

theorem boundaryOf_redeclared (m : Model) (shapes : List Shape) (side : Direction) :
    boundaryOf (m.redeclared shapes).nodes side = boundaryOf m.nodes side := by
  have hstands : standsOn (m.redeclared shapes).nodes side = standsOn m.nodes side := by
    funext k
    rw [standsOn, standsOn, getElem?_redeclared]
    cases m.nodes[k]? <;> simp [side_redeclareAt]
  rw [boundaryOf, boundaryOf, hstands, length_redeclared]

/-- The parameters of a model become the parameters of its body. -/
theorem length_parameters (m : Model) :
    m.parameters.length = (boundaryOf m.nodes .input).length := by
  rw [length_boundaryOf, boundaryBefore, List.take_length, parameters,
    ← List.countP_eq_length_filter]
  refine List.countP_congr fun n _ => ?_
  cases n.node.op <;> simp [Op.side?]

end Model

namespace Body

open Model

variable {b b' c c' : Body} {params results : List ExprId} {shapes out out' : List Shape}
  {m : Model} {provider : Option Provider} {p q : ExprId} {e e' : Expression} {err err' : IrError}
  {count : Nat}

/-- The expression of a number below the bound is its own counterpart. -/
def SameNumber (count : Nat) (p q : ExprId) : Prop := p.index < count ∧ q = p

/-! ## Stopping at the same place -/

/-- Two ways to split a list at an item split it at the same place, or one before the other. -/
theorem split_cases {α : Type} {l₁ l₂ m₁ m₂ : List α} {x y : α}
    (h : l₁ ++ x :: l₂ = m₁ ++ y :: m₂) :
    (l₁ = m₁ ∧ x = y) ∨ (∃ between, m₁ = l₁ ++ x :: between) ∨
      ∃ between, l₁ = m₁ ++ y :: between := by
  rcases List.append_eq_append_iff.mp h with ⟨between, hm, heq⟩ | ⟨between, hl, heq⟩
  · cases between with
    | nil => exact .inl ⟨by rw [hm, List.append_nil], (List.cons.inj heq).1⟩
    | cons z between =>
      obtain ⟨rfl, -⟩ := List.cons.inj heq
      exact .inr (.inl ⟨between, hm⟩)
  · cases between with
    | nil => exact .inl ⟨by rw [hl, List.append_nil], (List.cons.inj heq).1.symm⟩
    | cons z between =>
      obtain ⟨rfl, -⟩ := List.cons.inj heq
      exact .inr (.inr ⟨between, hl⟩)

/-- An inference does not fail at an expression that the inference over the twin has settled, with
all that come before it. -/
theorem not_fails_early (h : Twins (SameNumber count) Eq b c) {before between after : List ExprId}
    (horder : c.order = before ++ q :: after) (hb : b.SettledIn (before ++ q :: between))
    (hc : c.SettledIn before) (hq : q.index < count) (hnot : ¬ c.IsParameter q) :
    ¬ c.Fails q err := by
  have hnot' : ¬ b.IsParameter q :=
    fun hparam => hnot ((h.corresponds.isParameter_iff ⟨hq, rfl⟩).mpr hparam)
  refine h.not_fails horder ?_ hc ⟨hq, rfl⟩ hnot' ?_
  · rintro _ hmem p ⟨-, rfl⟩ hparam
    exact hb _ (List.mem_append_left _ hmem) hparam
  · exact hb q (List.mem_append_right _ List.mem_cons_self) hnot'

/-- Inferences that stop at the same expression, for the same node and strategy, stop for the same
cause. -/
theorem same_cause (h : Twins (SameNumber count) Eq b c) {before after : List ExprId}
    (horder : c.order = before ++ p :: after) (hb : b.SettledIn before) (hc : c.SettledIn before)
    (hp : p.index < count) (he : b.exprs.get? p = some e) (he' : c.exprs.get? p = some e')
    (hnode : e'.node = e.node) (hstrategy : e'.strategy = e.strategy) (hfails : b.Fails p err)
    (hfails' : c.Fails p err') : err = err' := by
  have hbefore : ∀ q ∈ before, ∀ p, SameNumber count p q → OutputsLike Eq b c p q := by
    refine h.outputs_of_settled horder ?_ hc
    rintro _ hmem p ⟨-, rfl⟩ hparam
    exact hb _ hmem hparam
  obtain ⟨f, operands, cause, hf, hops, herror, rfl⟩ := hfails
  obtain ⟨f', operands', cause', hf', hops', herror', rfl⟩ := hfails'
  obtain rfl := Option.some.inj (he.symm.trans (expr_eq_ok_iff.mp hf))
  obtain rfl := Option.some.inj (he'.symm.trans (expr_eq_ok_iff.mp hf'))
  obtain ⟨f, f', hf, hf', hff'⟩ := h.corresponds p p ⟨hp, rfl⟩
  obtain rfl := Option.some.inj (he.symm.trans hf)
  obtain rfl := Option.some.inj (he'.symm.trans hf')
  have hlike := hff'.operands_like h.wired' he'
    (fun q hq => hbefore q (h.wired'.mem_of_runsBefore horder hq)) hops hops'
  rw [List.forall₂_eq_eq_eq] at hlike
  rw [Expression.attempt_congr (congrArg Node.op hnode) hstrategy, ← hlike, herror] at herror'
  rw [hnode, Except.error.inj herror']

theorem same_stop (h : Twins (SameNumber count) Eq b c) (h' : Twins (SameNumber count) Eq c b)
    (horder : c.order = b.order) (hlt : ∀ id ∈ b.order, id.index < count)
    {before before' : List ExprId} (hb : b.StoppedAt before p err)
    (hc : c.StoppedAt before' q err') : before = before' ∧ p = q := by
  obtain ⟨after, hsplit⟩ := hb.order
  obtain ⟨after', hsplit'⟩ := hc.order
  rcases split_cases (hsplit.symm.trans (horder.symm.trans hsplit')) with
    hsame | ⟨between, rfl⟩ | ⟨between, rfl⟩
  · exact hsame
  · exact absurd hb.fails (not_fails_early h' hsplit hc.settled hb.settled (hlt p hb.mem)
      hb.notParameter)
  · exact absurd hc.fails (not_fails_early h hsplit' hb.settled hc.settled
      (hlt q (horder ▸ hc.mem)) hc.notParameter)

/-- Twins over which the inference went through have the same shapes at all ports. -/
theorem shapeAt_of_twins (h : Twins (SameNumber count) Eq b c) (horder : c.order = b.order)
    (hlt : ∀ id ∈ b.order, id.index < count) (hb : b.SettledIn b.order)
    (hc : c.SettledIn c.order) (port : Port) : b.shapeAt port = c.shapeAt port := by
  obtain ⟨id, direction, index⟩ := port
  by_cases hid : id ∈ b.order
  · obtain ⟨e, he⟩ := (h.wired.mem_order id).mp hid
    obtain ⟨e', he'⟩ := (h.wired'.mem_order id).mp (horder ▸ hid)
    obtain ⟨hinputs, houtputs⟩ := h.shapes_of_settled hb hc ⟨hlt id hid, rfl⟩ he he'
    rw [List.forall₂_eq_eq_eq] at hinputs houtputs
    exact shapeAt_eq_of_shapes he he' hinputs houtputs direction index
  · have hnone : b.exprs.get? id = none := Option.eq_none_iff_forall_ne_some.mpr
      fun e he => hid ((h.wired.mem_order id).mpr ⟨e, he⟩)
    have hnone' : c.exprs.get? id = none := Option.eq_none_iff_forall_ne_some.mpr
      fun e he => hid (horder ▸ (h.wired'.mem_order id).mpr ⟨e, he⟩)
    exact shapeAt_congr (hnone.trans hnone'.symm)

/-! ## Both ways -/

/-- A parameter has the same shape whether it is given or declared. -/
theorem outputShapes_of_redeclared (hb : InferredFrom m provider shapes b b')
    (hc : InferredFrom (m.redeclared shapes) provider [] c c')
    (hlength : shapes.length = m.parameters.length) (hparam : b'.IsParameter p) :
    ∃ e e' shape, b'.exprs.get? p = some e ∧ c'.exprs.get? p = some e' ∧
      e.outputShapes = [shape] ∧ e'.outputShapes = [shape] := by
  have hparams := hb.mirrors.byOrdinal_boundaryOf .input
  obtain ⟨e, he, hside⟩ := (hb.retouched.isParameter_iff p).mp hparam
  obtain ⟨n, hn, hfrom⟩ := hb.mirrors.node he
  rw [hfrom.node] at hside
  have hplace := getElem?_boundaryOf hn hside
  obtain ⟨shape, hshape⟩ : ∃ shape, shapes[boundaryBefore m.nodes p.index .input]? = some shape :=
    ⟨_, List.getElem?_eq_getElem (by
      rw [hlength, length_parameters]
      exact (List.getElem?_eq_some_iff.mp hplace).1)⟩
  obtain ⟨f, hf, hgivenShape⟩ := hb.given.outputShapes hparams hb.retouched hplace hshape
  -- The other body had the shape from the beginning, and was not given any.
  obtain ⟨g, hg, hfrom'⟩ := hc.mirrors.expr (k := p.index)
    (n := redeclareAt m.nodes shapes p.index n) (by rw [getElem?_redeclared, hn]; rfl)
  rw [redeclareAt_of_parameter hside hshape] at hfrom'
  rw [← boundaryOf_redeclared m shapes] at hplace
  obtain ⟨g', hg', hsame⟩ := hc.given.outputShapes_kept (hc.mirrors.byOrdinal_boundaryOf .input)
    hc.retouched (List.mem_of_getElem? hplace) hg
  refine ⟨f, g', shape, hf, hg', hgivenShape, ?_⟩
  rw [hsame, hc.declared.shapes _ g hg, hfrom'.node]
  rfl

/-- The bodies are twins once the shapes were given to the one that had not declared them. -/
theorem twins_redeclared (hwell : m.WellFormed) (hb : InferredFrom m provider shapes b b')
    (hc : InferredFrom (m.redeclared shapes) provider [] c c')
    (hlength : shapes.length = m.parameters.length) :
    Twins (SameNumber m.nodes.length) Eq b' c' ∧ Twins (SameNumber m.nodes.length) Eq c' b' := by
  have hforth := (hb.mirrors.corresponds hc.mirrors hwell hb.declared.provider
    hc.declared.provider (embeds_redeclared m shapes provider)).retouched hb.retouched hc.retouched
  have hback := (hc.mirrors.corresponds hb.mirrors (hwell.redeclared shapes) hc.declared.provider
    hb.declared.provider (embeds_of_redeclared m shapes provider)).retouched hc.retouched
      hb.retouched
  rw [length_redeclared] at hback
  have hshapes := fun p hparam => outputShapes_of_redeclared (p := p) hb hc hlength hparam
  refine ⟨⟨hb.wired, hc.wired, hforth, ?_⟩, ⟨hc.wired, hb.wired, hback, ?_⟩⟩
  · rintro p _ ⟨-, rfl⟩ hparam
    obtain ⟨e, e', shape, he, he', hout, hout'⟩ := hshapes _ hparam
    exact ⟨e, e', he, he', by rw [hout, hout', List.forall₂_eq_eq_eq]⟩
  · rintro p _ ⟨hp, rfl⟩ hparam
    obtain ⟨e, e', shape, he, he', hout, hout'⟩ :=
      hshapes _ ((hback.isParameter_iff ⟨hp, rfl⟩).mpr hparam)
    exact ⟨e', e, he', he, by rw [hout, hout', List.forall₂_eq_eq_eq]⟩

/-- Expressions other than parameters have the same node in either body, and the same strategy. -/
theorem node_of_redeclared (hb : InferredFrom m provider shapes b b')
    (hc : InferredFrom (m.redeclared shapes) provider [] c c') (hnot : ¬ b'.IsParameter p)
    (he : b'.exprs.get? p = some e) (he' : c'.exprs.get? p = some e') :
    e'.node = e.node ∧ e'.strategy = e.strategy := by
  obtain ⟨f, hf, hfe⟩ := hb.retouched.before he
  obtain ⟨f', hf', hfe'⟩ := hc.retouched.before he'
  obtain ⟨n, hn, hfrom⟩ := hb.mirrors.node hf
  obtain ⟨n', hn', hfrom'⟩ := hc.mirrors.node hf'
  have hside : n.node.op.side? ≠ some .input := by
    intro hside
    exact hnot ⟨e, he, by rw [hfe.node, hfrom.node, hside]⟩
  rw [getElem?_redeclared, hn, Option.map_some, redeclareAt_of_not_parameter hside] at hn'
  obtain rfl := Option.some.inj hn'
  have hnode : f'.node = f.node := hfrom'.node.trans hfrom.node.symm
  refine ⟨by rw [hfe'.node, hfe.node, hnode], ?_⟩
  rw [hfe'.strategy, hfe.strategy, (hb.mirrors.installed p f hf).strategy,
    (hc.mirrors.installed p f' hf').strategy, hnode, hb.declared.provider, hc.declared.provider]

theorem order_of_redeclared (hb : InferredFrom m provider shapes b b')
    (hc : InferredFrom (m.redeclared shapes) provider [] c c') : c'.order = b'.order := by
  rw [hb.order, hc.order, length_redeclared]

/-- If both inferences stop, it is for the same error. -/
theorem error_of_redeclared (hwell : m.WellFormed) (hb : InferredFrom m provider shapes b b')
    (hc : InferredFrom (m.redeclared shapes) provider [] c c')
    (hlength : shapes.length = m.parameters.length) {before before' : List ExprId}
    (hstop : b'.StoppedAt before p err) (hstop' : c'.StoppedAt before' q err') : err = err' := by
  obtain ⟨hforth, hback⟩ := twins_redeclared hwell hb hc hlength
  obtain ⟨rfl, rfl⟩ := same_stop hforth hback (order_of_redeclared hb hc)
    (fun _ hid => hb.mem_order.mp hid) hstop hstop'
  obtain ⟨after, hsplit⟩ := hstop'.order
  obtain ⟨e, he⟩ := (hforth.wired.mem_order p).mp hstop.mem
  obtain ⟨e', he'⟩ := (hforth.wired'.mem_order p).mp hstop'.mem
  obtain ⟨hnode, hstrategy⟩ := node_of_redeclared hb hc hstop.notParameter he he'
  exact same_cause hforth hsplit hstop.settled hstop'.settled (hb.mem_order.mp hstop.mem) he he'
    hnode hstrategy hstop.fails hstop'.fails

/-- Giving shapes to the body of a model and declaring them in the model come to the same. -/
theorem inferShapes_of_wellFormed (hwell : m.WellFormed) (provider : Option Provider)
    (hlength : shapes.length = m.parameters.length) :
    ∃ b c, ofModel m provider = .ok b ∧ ofModel (m.redeclared shapes) provider = .ok c ∧
      ((∃ name cause, (b.inferShapes shapes).1 = .error (.shapeInference name cause) ∧
        (c.inferShapes []).1 = .error (.shapeInference name cause)) ∨
      ∃ out, (b.inferShapes shapes).1 = .ok out ∧ (c.inferShapes []).1 = .ok out ∧
        ∀ port, (b.inferShapes shapes).2.shapeAt port = (c.inferShapes []).2.shapeAt port) := by
  have hfits : shapes.length = (boundaryOf m.nodes .input).length := by
    rw [hlength, length_parameters]
  obtain ⟨b, b', hlowered, hb, hcases⟩ := inferred_ofModel hwell provider (.inr hfits)
  obtain ⟨c, c', hlowered', hc, hcases'⟩ :=
    inferred_ofModel (hwell.redeclared shapes) provider (.inl rfl)
  obtain ⟨hforth, hback⟩ := twins_redeclared hwell hb hc hlength
  have horder := order_of_redeclared hb hc
  have hpaired : ∀ id ∈ b'.order, ∃ p, SameNumber m.nodes.length p id :=
    fun id hid => ⟨id, hb.mem_order.mp hid, rfl⟩
  refine ⟨b, c, hlowered, hlowered', ?_⟩
  rcases hcases with ⟨err, before, p, heq, hstop⟩ | ⟨out, heq, hsettled, hresults⟩ <;>
    rcases hcases' with ⟨err', before', q, heq', hstop'⟩ | ⟨out', heq', hsettled', hresults'⟩ <;>
    rw [heq, heq']
  · left
    obtain rfl := error_of_redeclared hwell hb hc hlength hstop hstop'
    obtain ⟨f, operands, cause, -, -, -, rfl⟩ := hstop.fails
    exact ⟨f.node.name, cause, rfl, rfl⟩
  · exact absurd hstop (hback.not_stoppedAt hsettled' hpaired)
  · exact absurd hstop' (hforth.not_stoppedAt hsettled (horder ▸ hpaired))
  · right
    have hshapes :=
      shapeAt_of_twins hforth horder (fun _ hid => hb.mem_order.mp hid) hsettled hsettled'
    rw [boundaryOf_redeclared, ← List.map_id (boundaryOf m.nodes .output)] at hresults'
    obtain rfl := out_eq_of_shapes hresults hresults' fun id _ => hshapes _
    exact ⟨out, rfl, rfl, hshapes⟩

end Body

/-! ## Programs -/

namespace Program

open Body

/-- For the model of any program and any provider of strategies, shapes may be given to the body of
the model or declared in the model. Either both inferences stop, at a node of the same name and for
the same cause, or both answer the same and leave the same shapes at all ports. -/
theorem inferShapes_redeclared (p : Program) (provider : Option Provider) {shapes : List Shape}
    (hlength : shapes.length = p.model.model.parameters.length) :
    ∃ b c, ofModel p.model.model provider = .ok b ∧
      ofModel (p.model.model.redeclared shapes) provider = .ok c ∧
      ((∃ name cause, (b.inferShapes shapes).1 = .error (.shapeInference name cause) ∧
        (c.inferShapes []).1 = .error (.shapeInference name cause)) ∨
      ∃ out, (b.inferShapes shapes).1 = .ok out ∧ (c.inferShapes []).1 = .ok out ∧
        ∀ port, (b.inferShapes shapes).2.shapeAt port = (c.inferShapes []).2.shapeAt port) :=
  inferShapes_of_wellFormed p.wellFormed_model provider hlength

/-- A parameter and its negation. -/
def negation : Program where
  statements :=
    [⟨some ⟨"x", ⟨0, 1⟩⟩, ⟨"Parameter", ⟨4, 13⟩⟩,
        [⟨⟨"shape", ⟨14, 19⟩⟩, .dims [.fixed 2 ⟨21, 22⟩] ⟨20, 23⟩⟩], [], ⟨0, 26⟩⟩,
      ⟨some ⟨"y", ⟨27, 28⟩⟩, ⟨"Neg", ⟨31, 34⟩⟩, [], [⟨⟨"x", ⟨35, 36⟩⟩, 0⟩], ⟨27, 37⟩⟩,
      ⟨none, ⟨"Result", ⟨38, 44⟩⟩, [], [⟨⟨"y", ⟨45, 46⟩⟩, 0⟩], ⟨38, 47⟩⟩]
  span := ⟨0, 48⟩

/-- The shape that is declared in place of the first one is the shape that is given. -/
theorem inferShapes_redeclared_negation :
    Diagnostic.anyError negation.model.diagnostics = false ∧
    negation.model.model.parameters.map (fun n => n.node.op) = [.parameter ⟨[.static 2]⟩] ∧
    (negation.model.model.redeclared [⟨[.static 3]⟩]).parameters.map (fun n => n.node.op) =
      [.parameter ⟨[.static 3]⟩] ∧
    [(⟨[.static 3]⟩ : Shape)].length = negation.model.model.parameters.length ∧
    ∃ b c, ofModel negation.model.model none = .ok b ∧
      ofModel (negation.model.model.redeclared [⟨[.static 3]⟩]) none = .ok c ∧
      ((∃ name cause, (b.inferShapes [⟨[.static 3]⟩]).1 = .error (.shapeInference name cause) ∧
        (c.inferShapes []).1 = .error (.shapeInference name cause)) ∨
      ∃ out, (b.inferShapes [⟨[.static 3]⟩]).1 = .ok out ∧ (c.inferShapes []).1 = .ok out ∧
        ∀ port, (b.inferShapes [⟨[.static 3]⟩]).2.shapeAt port =
          (c.inferShapes []).2.shapeAt port) := by
  have hlength : [(⟨[.static 3]⟩ : Shape)].length = negation.model.model.parameters.length := by
    decide +kernel
  exact ⟨by decide +kernel, by decide +kernel, by decide +kernel, hlength,
    inferShapes_redeclared negation none hlength⟩

end Program

end TensorIR
