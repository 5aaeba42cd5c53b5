import Mathlib.Data.List.Sort
import Mathlib.Logic.Equiv.Defs
import TensorIR.Proofs.Body.Mirroring

/-!
# Models with their nodes at other places

The nodes of a model may stand in another order, with their references following them, as long as
parameters and results keep the order that they have among themselves (`Model.Moved`). Inference
does not notice (`inferShapes_moved`): it answers for both models or for neither, the answers are the
same, and a node has the same shapes in its new place.

The two schedules have nothing in common but that each respects the references. So where both
inferences stop they may do so at different nodes; but where one goes through, there is no node at
which the other could stop.
-/

set_option autoImplicit false

namespace TensorIR

/-- The second node is the first, with references to the places where nodes have gone. -/
structure ModelNode.Moved (place : Nat → Nat) (n n' : ModelNode) : Prop where
  op : n'.node.op = n.node.op
  shapes : n'.node.outputShapes = n.node.outputShapes
  inputs : n'.inputs = n.inputs.map (Model.moveRef place)

namespace Model

/-- The second model is the first with its nodes at other places. -/
structure Moved (place : Equiv.Perm Nat) (m m' : Model) : Prop where
  node : ∀ k n, m.nodes[k]? = some n → ∃ n', m'.nodes[place k]? = some n' ∧ n.Moved place n'
  onto : ∀ k, k < m'.nodes.length → place.symm k < m.nodes.length
  ascending : ∀ side i j, i < j → standsOn m.nodes side i = true →
    standsOn m.nodes side j = true → place i < place j

variable {place : Equiv.Perm Nat} {m m' : Model} {n n' : ModelNode} {k : Nat} {side : Direction}

theorem moveRef_symm (place : Equiv.Perm Nat) (refs : List OutputRef) :
    (refs.map (moveRef place)).map (moveRef place.symm) = refs := by
  rw [List.map_map]
  refine (List.map_congr_left fun ref _ => ?_).trans (List.map_id refs)
  simp [moveRef]

theorem Moved.back (h : Moved place m m') (hn : m'.nodes[k]? = some n') :
    ∃ n, m.nodes[place.symm k]? = some n ∧ n.Moved place n' := by
  have hk := h.onto k (List.getElem?_eq_some_iff.mp hn).1
  obtain ⟨n'', hn'', hmoved⟩ := h.node _ _ (List.getElem?_eq_getElem hk)
  rw [Equiv.apply_symm_apply] at hn''
  obtain rfl := Option.some.inj (hn.symm.trans hn'')
  exact ⟨_, List.getElem?_eq_getElem hk, hmoved⟩

theorem Moved.standsOn (h : Moved place m m') (side : Direction) (k : Nat) :
    standsOn m'.nodes side (place k) = Model.standsOn m.nodes side k := by
  cases hn : m'.nodes[place k]? with
  | some n' =>
    obtain ⟨n, hn', hmoved⟩ := h.back hn
    rw [Equiv.symm_apply_apply] at hn'
    rw [Model.standsOn, Model.standsOn, hn, hn', Option.any_some, Option.any_some, hmoved.op]
  | none =>
    cases hn' : m.nodes[k]? with
    | some n =>
      obtain ⟨n', hmoved, -⟩ := h.node k n hn'
      rw [hn] at hmoved
      cases hmoved
    | none => rw [Model.standsOn, Model.standsOn, hn, hn']

/-- Nodes can be moved back. -/
theorem Moved.symm (h : Moved place m m') : Moved place.symm m' m where
  node k n' hn' := by
    obtain ⟨n, hn, hmoved⟩ := h.back hn'
    exact ⟨n, hn, hmoved.op.symm, hmoved.shapes.symm, by rw [hmoved.inputs, moveRef_symm]⟩
  onto k hk := by
    obtain ⟨n', hn', -⟩ := h.node k _ (List.getElem?_eq_getElem hk)
    exact (List.getElem?_eq_some_iff.mp hn').1
  ascending side i j hij hi hj := by
    -- If they had stood the other way round, they still would.
    have hback : ∀ k, Model.standsOn m'.nodes side k = true →
        Model.standsOn m.nodes side (place.symm k) = true := by
      intro k hk
      rwa [← h.standsOn, Equiv.apply_symm_apply]
    rcases Nat.lt_trichotomy (place.symm i) (place.symm j) with hlt | heq | hgt
    · exact hlt
    · exact absurd (place.symm.injective heq) (Nat.ne_of_lt hij)
    · have hji := h.ascending side _ _ hgt (hback j hj) (hback i hi)
      rw [Equiv.apply_symm_apply, Equiv.apply_symm_apply] at hji
      exact absurd hji (Nat.lt_asymm hij)

theorem Moved.embeds (h : Moved place m m') : Embeds place none m.nodes m'.nodes := by
  intro k n hn
  obtain ⟨n', hn', hmoved⟩ := h.node k n hn
  refine ⟨n', hn', hmoved.inputs, by rw [hmoved.op], fun _ => hmoved.op, fun _ => ?_⟩
  simp only [strategyFor, Provider.orElse, ShapeRule.provider, hmoved.op]

/-- Parameters and results keep their order. -/
theorem Moved.boundaryOf (h : Moved place m m') (side : Direction) :
    boundaryOf m'.nodes side = (boundaryOf m.nodes side).map fun id => ⟨place id.index⟩ := by
  have hplaces : (List.range m'.nodes.length).filter (Model.standsOn m'.nodes side) =
      ((List.range m.nodes.length).filter (Model.standsOn m.nodes side)).map place := by
    refine (List.pairwise_lt_range.filter _).eq_of_mem_iff
      (List.pairwise_map.mpr ((List.pairwise_lt_range.filter _).imp_of_mem ?_)) fun k => ?_
    · intro i j hi hj hij
      exact h.ascending side i j hij (mem_filter_standsOn.mp hi) (mem_filter_standsOn.mp hj)
    · rw [mem_filter_standsOn, List.mem_map]
      constructor
      · intro hk
        refine ⟨place.symm k, mem_filter_standsOn.mpr ?_, Equiv.apply_symm_apply ..⟩
        rwa [← h.standsOn, Equiv.apply_symm_apply]
      · rintro ⟨i, hi, rfl⟩
        rw [h.standsOn]
        exact mem_filter_standsOn.mp hi
  rw [Model.boundaryOf, Model.boundaryOf, hplaces, List.map_map, List.map_map]
  rfl

end Model

namespace Body

open Model

variable {b b' c c' : Body} {place : Equiv.Perm Nat} {m m' : Model} {shapes out : List Shape}
  {p q : ExprId}

/-! ## Inference -/

/-- A parameter has the same shape in its new place, whether it was given or declared. -/
theorem outputsLike_of_moved (h : Moved place m m') (hb : InferredFrom m none shapes b b')
    (hc : InferredFrom m' none shapes c c')
    (hfits : shapes = [] ∨ shapes.length = (boundaryOf m.nodes .input).length)
    (hpq : MovedTo place m.nodes.length p q) (hparam : b'.IsParameter p) :
    OutputsLike Eq b' c' p q := by
  obtain ⟨-, rfl⟩ := hpq
  have hparams := hb.mirrors.byOrdinal_boundaryOf .input
  have hparams' := hc.mirrors.byOrdinal_boundaryOf .input
  have hbefore : b.IsParameter p := (hb.retouched.isParameter_iff p).mp hparam
  obtain ⟨i, hi⟩ := List.mem_iff_getElem?.mp ((hparams.isParameter_iff p).mp hbefore)
  have hi' : (boundaryOf m'.nodes .input)[i]? = some ⟨place p.index⟩ := by
    rw [h.boundaryOf, List.getElem?_map, hi, Option.map_some]
  rcases hfits with rfl | hlength
  · obtain ⟨e, he, -⟩ := hbefore
    obtain ⟨n, hn, hfrom⟩ := hb.mirrors.node he
    obtain ⟨n', hn', hmoved⟩ := h.node _ n hn
    obtain ⟨e', he', hfrom'⟩ := hc.mirrors.expr hn'
    obtain ⟨f, hf, hkept⟩ :=
      hb.given.outputShapes_kept hparams hb.retouched (List.mem_of_getElem? hi) he
    obtain ⟨f', hf', hkept'⟩ :=
      hc.given.outputShapes_kept hparams' hc.retouched (List.mem_of_getElem? hi') he'
    refine ⟨f, f', hf, hf', List.forall₂_eq_eq_eq ▸ ?_⟩
    rw [hkept, hkept', hb.declared.shapes _ e he, hc.declared.shapes _ e' he', hfrom.node,
      hfrom'.node, hmoved.shapes]
  · obtain ⟨shape, hshape⟩ : ∃ shape, shapes[i]? = some shape :=
      ⟨_, List.getElem?_eq_getElem (hlength ▸ (List.getElem?_eq_some_iff.mp hi).1)⟩
    exact hb.given.outputsLike hparams hb.retouched hc.given hparams' hc.retouched hi hi' hshape
      hshape rfl

theorem twins_of_moved (h : Moved place m m') (hwell : m.WellFormed)
    (hb : InferredFrom m none shapes b b') (hc : InferredFrom m' none shapes c c')
    (hfits : shapes = [] ∨ shapes.length = (boundaryOf m.nodes .input).length) :
    Twins (MovedTo place m.nodes.length) Eq b' c' where
  wired := hb.wired
  wired' := hc.wired
  corresponds := (hb.mirrors.corresponds hc.mirrors hwell hb.declared.provider
    hc.declared.provider h.embeds).retouched hb.retouched hc.retouched
  params _ _ := outputsLike_of_moved h hb hc hfits

/-- If inference goes through for the one model, it does not stop for the other. -/
theorem not_stopped_of_moved (h : Moved place m m') (hwell : m.WellFormed)
    (hb : InferredFrom m none shapes b b') (hc : InferredFrom m' none shapes c c')
    (hfits : shapes = [] ∨ shapes.length = (boundaryOf m.nodes .input).length)
    (hsettled : b'.SettledIn b'.order) {before : List ExprId} {err : IrError} :
    ¬ c'.StoppedAt before q err := by
  refine (twins_of_moved h hwell hb hc hfits).not_stoppedAt hsettled fun id hid => ?_
  exact ⟨⟨place.symm id.index⟩, h.onto _ (hc.mem_order.mp hid), by rw [Equiv.apply_symm_apply]⟩

/-- After both inferences a node has the same shapes in its new place. -/
theorem shapes_of_moved (h : Moved place m m') (hwell : m.WellFormed)
    (hb : InferredFrom m none shapes b b') (hc : InferredFrom m' none shapes c c')
    (hfits : shapes = [] ∨ shapes.length = (boundaryOf m.nodes .input).length)
    (hsettled : b'.SettledIn b'.order) (hsettled' : c'.SettledIn c'.order) {k : Nat}
    {n n' : ModelNode} (hn : m.nodes[k]? = some n) (hn' : m'.nodes[place k]? = some n') :
    ∃ e e', b'.expr ⟨k⟩ = .ok e ∧ c'.expr ⟨place k⟩ = .ok e' ∧ e.node = n.node ∧
      e'.node = n'.node ∧ e'.inputShapes = e.inputShapes ∧ e'.outputShapes = e.outputShapes := by
  obtain ⟨e, he, hfrom⟩ := hb.mirrors.expr hn
  obtain ⟨e', he', hfrom'⟩ := hc.mirrors.expr hn'
  obtain ⟨f, hf, hef⟩ := hb.retouched.after he
  obtain ⟨f', hf', hef'⟩ := hc.retouched.after he'
  have hk : k < m.nodes.length := (List.getElem?_eq_some_iff.mp hn).1
  obtain ⟨hinputs, houtputs⟩ := (twins_of_moved h hwell hb hc hfits).shapes_of_settled hsettled
    hsettled' ⟨hk, rfl⟩ hf hf'
  rw [List.forall₂_eq_eq_eq] at hinputs houtputs
  exact ⟨f, f', expr_eq_ok_iff.mpr hf, expr_eq_ok_iff.mpr hf', by rw [hef.node, hfrom.node],
    by rw [hef'.node, hfrom'.node], hinputs.symm, houtputs.symm⟩

/-- Inference over a model and over the same with its nodes at other places answers for both or for
neither. The answers are the same, and so are the shapes of each node. -/
theorem inferShapes_moved (h : Moved place m m') (hwell : m.WellFormed) (hwell' : m'.WellFormed)
    (shapes : List Shape) :
    ∃ b c, ofModel m none = .ok b ∧ ofModel m' none = .ok c ∧
      ((∃ err err', (b.inferShapes shapes).1 = .error err ∧
        (c.inferShapes shapes).1 = .error err') ∨
      ∃ out, (b.inferShapes shapes).1 = .ok out ∧ (c.inferShapes shapes).1 = .ok out ∧
        ∀ k n n', m.nodes[k]? = some n → m'.nodes[place k]? = some n' →
          ∃ e e', (b.inferShapes shapes).2.expr ⟨k⟩ = .ok e ∧
            (c.inferShapes shapes).2.expr ⟨place k⟩ = .ok e' ∧ e.node = n.node ∧
              e'.node = n'.node ∧ e'.inputShapes = e.inputShapes ∧
                e'.outputShapes = e.outputShapes) := by
  have hcount : (boundaryOf m'.nodes .input).length = (boundaryOf m.nodes .input).length := by
    rw [h.boundaryOf, List.length_map]
  by_cases hfits : shapes = [] ∨ shapes.length = (boundaryOf m.nodes .input).length
  · have hfits' : shapes = [] ∨ shapes.length = (boundaryOf m'.nodes .input).length :=
      hcount ▸ hfits
    obtain ⟨b, b', hlowered, hb, hcases⟩ := inferred_ofModel hwell none hfits
    obtain ⟨c, c', hlowered', hc, hcases'⟩ := inferred_ofModel hwell' none hfits'
    refine ⟨b, c, hlowered, hlowered', ?_⟩
    rcases hcases with ⟨err, before, p, heq, hstop⟩ | ⟨out, heq, hsettled, hresults⟩ <;>
      rcases hcases' with ⟨err', before', q, heq', hstop'⟩ | ⟨out', heq', hsettled', hresults'⟩ <;>
      rw [heq, heq']
    · exact .inl ⟨err, err', rfl, rfl⟩
    · exact absurd hstop (not_stopped_of_moved h.symm hwell' hc hb hfits' hsettled')
    · exact absurd hstop' (not_stopped_of_moved h hwell hb hc hfits hsettled)
    · right
      have hsame : ∀ id ∈ boundaryOf m.nodes .output,
          b'.shapeAt ⟨id, .input, 0⟩ = c'.shapeAt ⟨⟨place id.index⟩, .input, 0⟩ := by
        intro id hid
        obtain ⟨n, hn⟩ : ∃ n, m.nodes[id.index]? = some n :=
          ⟨_, List.getElem?_eq_getElem (lt_of_standsOn (mem_boundaryOf.mp hid))⟩
        obtain ⟨n', hn', -⟩ := h.node _ n hn
        obtain ⟨e, e', he, he', -, -, hinputs, houtputs⟩ :=
          shapes_of_moved h hwell hb hc hfits hsettled hsettled' hn hn'
        exact shapeAt_eq_of_shapes (expr_eq_ok_iff.mp he) (expr_eq_ok_iff.mp he') hinputs.symm
          houtputs.symm .input 0
      rw [h.boundaryOf] at hresults'
      obtain rfl := out_eq_of_shapes hresults hresults' hsame
      exact ⟨out, rfl, rfl, fun k n n' =>
        shapes_of_moved h hwell hb hc hfits hsettled hsettled'⟩
  · obtain ⟨hne, hlength⟩ := not_or.mp hfits
    obtain ⟨b, hlowered, hb⟩ := mirrors_ofModel hwell none
    obtain ⟨c, hlowered', hc⟩ := mirrors_ofModel hwell' none
    exact ⟨b, c, hlowered, hlowered', .inl ⟨_, _,
      hb.toCoherent.inferShapes_mismatch (hb.byOrdinal_boundaryOf .input) hne hlength,
      hc.toCoherent.inferShapes_mismatch (hc.byOrdinal_boundaryOf .input) hne
        (hcount ▸ hlength)⟩⟩

end Body

end TensorIR
