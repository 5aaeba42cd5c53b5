import TensorIR.Proofs.Body.Correspondence
import TensorIR.Proofs.Body.Lowering

/-!
# Bodies that mirror models

A body that a model was lowered to can be read off the model: which expressions are its parameters
and results, in which order (`Mirrors.byOrdinal_boundaryOf`), and what shapes its outputs have
before any inference (`asDeclared_ofModel`).

So two such bodies correspond if the models do. A model may have its nodes at other places than
another one (`Model.Embeds`); references follow the nodes, and then the expressions of a node and of
its counterpart are each other's counterparts (`Mirrors.corresponds`). Parameters need only be
parameters on both sides: what they declare is not compared here.
-/

set_option autoImplicit false

namespace TensorIR

namespace Model

/-! ## Places of nodes -/

/-- The reference after the nodes were moved. -/
def moveRef (place : Nat → Nat) (ref : OutputRef) : OutputRef := ⟨place ref.node, ref.port⟩

/-- The second node does in its model what the first does in its own. -/
structure Counterpart (place : Nat → Nat) (provider : Option Provider) (n n' : ModelNode) :
    Prop where
  inputs : n'.inputs = n.inputs.map (moveRef place)
  side : n'.node.op.side? = n.node.op.side?
  op : n.node.op.side? ≠ some .input → n'.node.op = n.node.op
  strategy : n.node.op.side? ≠ some .input →
    strategyFor provider n'.node = strategyFor provider n.node

/-- Every node of the first list has its counterpart in the second, at its place. -/
def Embeds (place : Nat → Nat) (provider : Option Provider) (nodes nodes' : List ModelNode) :
    Prop :=
  ∀ k n, nodes[k]? = some n → ∃ n', nodes'[place k]? = some n' ∧ Counterpart place provider n n'

variable {place : Nat → Nat} {provider : Option Provider} {nodes nodes' : List ModelNode}
  {n n' : ModelNode} {k : Nat} {side : Direction}

theorem Counterpart.outputCount (h : Counterpart place provider n n') :
    n'.node.outputCount = n.node.outputCount := by
  rw [Node.outputCount, Node.outputCount]
  by_cases hside : n.node.op.side? = some .input
  · rw [(Body.counts_of_parameter hside).2, (Body.counts_of_parameter (h.side.trans hside)).2]
  · rw [h.op hside]

theorem Embeds.resolves (h : Embeds place provider nodes nodes') {ref : OutputRef}
    (href : Resolves nodes ref) : Resolves nodes' (moveRef place ref) := by
  obtain ⟨n, hn, hport⟩ := href
  obtain ⟨n', hn', hnn'⟩ := h ref.node n hn
  exact ⟨n', hn', hnn'.outputCount ▸ hport⟩

/-! ## The boundary of a model -/

/-- The node at the position stands on the side of the graph. -/
def standsOn (nodes : List ModelNode) (side : Direction) (k : Nat) : Bool :=
  nodes[k]?.any fun n => n.node.op.side? = some side

/-- The expressions that the nodes on a side of the graph become. -/
def boundaryOf (nodes : List ModelNode) (side : Direction) : List ExprId :=
  ((List.range nodes.length).filter (standsOn nodes side)).map ExprId.mk

theorem standsOn_iff (hn : nodes[k]? = some n) :
    standsOn nodes side k = true ↔ n.node.op.side? = some side := by
  simp [standsOn, hn]

theorem lt_of_standsOn (h : standsOn nodes side k = true) : k < nodes.length := by
  by_contra hk
  rw [standsOn, List.getElem?_eq_none (Nat.le_of_not_lt hk)] at h
  cases h

theorem mem_filter_standsOn :
    k ∈ (List.range nodes.length).filter (standsOn nodes side) ↔ standsOn nodes side k = true := by
  rw [List.mem_filter, List.mem_range]
  exact and_iff_right_of_imp lt_of_standsOn

theorem mem_boundaryOf {id : ExprId} :
    id ∈ boundaryOf nodes side ↔ standsOn nodes side id.index = true := by
  rw [boundaryOf, List.mem_map]
  constructor
  · rintro ⟨k, hk, rfl⟩
    exact mem_filter_standsOn.mp hk
  · intro h
    exact ⟨id.index, mem_filter_standsOn.mpr h, rfl⟩

theorem countP_range (hk : k ≤ nodes.length) (side : Direction) :
    (List.range k).countP (standsOn nodes side) = boundaryBefore nodes k side := by
  induction k with
  | zero => rfl
  | succ k ih =>
    obtain ⟨n, hn⟩ : ∃ n, nodes[k]? = some n := ⟨_, List.getElem?_eq_getElem hk⟩
    rw [List.range_succ, List.countP_append, ih (Nat.le_of_succ_le hk), boundaryBefore_succ hn,
      List.countP_singleton]
    by_cases hside : n.node.op.side? = some side <;> simp [standsOn_iff hn, hside]

theorem length_boundaryOf (nodes : List ModelNode) (side : Direction) :
    (boundaryOf nodes side).length = boundaryBefore nodes nodes.length side := by
  rw [boundaryOf, List.length_map, ← List.countP_eq_length_filter,
    countP_range (Nat.le_refl _)]

/-- What a filter keeps of a list stands where it counts what is kept before it. -/
theorem getElem?_filter_countP {α : Type} {keep : α → Bool} {l : List α} {k : Nat} {x : α}
    (hx : l[k]? = some x) (hkeep : keep x = true) :
    (l.filter keep)[(l.take k).countP keep]? = some x := by
  obtain ⟨hk, rfl⟩ := List.getElem?_eq_some_iff.mp hx
  have hsplit : l.filter keep =
      (l.take k).filter keep ++ l[k] :: (l.drop (k + 1)).filter keep := by
    rw [← List.filter_cons_of_pos hkeep, ← List.filter_append, List.getElem_cons_drop,
      List.take_append_drop]
  rw [hsplit, List.countP_eq_length_filter, List.getElem?_append_right (Nat.le_refl _),
    Nat.sub_self]
  rfl

/-- The ordinal of a boundary node is its place among those of its side. -/
theorem getElem?_boundaryOf (hn : nodes[k]? = some n) (hside : n.node.op.side? = some side) :
    (boundaryOf nodes side)[boundaryBefore nodes k side]? = some ⟨k⟩ := by
  have hk : k < nodes.length := (List.getElem?_eq_some_iff.mp hn).1
  have hfound := getElem?_filter_countP (List.getElem?_range hk) ((standsOn_iff hn).mpr hside)
  rw [List.take_range, Nat.min_eq_left (Nat.le_of_lt hk), countP_range (Nat.le_of_lt hk)] at hfound
  rw [boundaryOf, List.getElem?_map, hfound]
  rfl

end Model

namespace Body

open Model

variable {b c : Body} {side : Direction} {ids : List ExprId} {place : Nat → Nat}
  {provider : Option Provider} {nodes nodes' : List ModelNode}

/-! ## The boundary of the body -/

/-- Ordinals ascend with numbers, so a list of the expressions on one side that ascends in numbers
is ordered by ordinal. -/
theorem Coherent.byOrdinal (h : Coherent b)
    (hmem : ∀ id, id ∈ ids ↔ ∃ e, b.expr id = .ok e ∧ e.node.op.side? = some side)
    (hascending : ids.Pairwise fun p q => p.index < q.index) : b.ByOrdinal side ids where
  mem_iff := hmem
  ascending := by
    refine hascending.imp_of_mem fun {p q} hp hq hlt => ?_
    obtain ⟨e, he, hside⟩ := (hmem p).mp hp
    obtain ⟨f, hf, hside'⟩ := (hmem q).mp hq
    obtain ⟨⟨_, r⟩, hr, rfl⟩ := (h.role_iff (expr_eq_ok_iff.mp he)).mp hside
    obtain ⟨⟨_, s⟩, hs, rfl⟩ := (h.role_iff (expr_eq_ok_iff.mp hf)).mp hside'
    exact ⟨e, f, r, s, he, hf, hr, hs, h.ordinal_mono p e _ q f _ (expr_eq_ok_iff.mp he) hr
      (expr_eq_ok_iff.mp hf) hs rfl hlt⟩

theorem Mirrors.side_iff (h : Mirrors b nodes nodes.length) (id : ExprId) :
    (∃ e, b.expr id = .ok e ∧ e.node.op.side? = some side) ↔
      standsOn nodes side id.index = true := by
  simp only [expr_eq_ok_iff]
  constructor
  · rintro ⟨e, he, hside⟩
    obtain ⟨n, hn, hfrom⟩ := h.node he
    exact (standsOn_iff hn).mpr (hfrom.node ▸ hside)
  · intro hstands
    obtain ⟨n, hn⟩ : ∃ n, nodes[id.index]? = some n :=
      ⟨_, List.getElem?_eq_getElem (lt_of_standsOn hstands)⟩
    obtain ⟨e, he, hfrom⟩ := h.expr hn
    exact ⟨e, he, hfrom.node ▸ (standsOn_iff hn).mp hstands⟩

theorem Mirrors.byOrdinal_boundaryOf (h : Mirrors b nodes nodes.length) (side : Direction) :
    b.ByOrdinal side (boundaryOf nodes side) := by
  refine h.toCoherent.byOrdinal (fun id => mem_boundaryOf.trans (h.side_iff id).symm) ?_
  exact List.pairwise_map.mpr (List.Pairwise.filter _ List.pairwise_lt_range)

/-! ## Before any inference -/

/-- Outputs have the shapes that the nodes declare, and strategies come from the provider. -/
structure AsDeclared (provider : Option Provider) (b : Body) : Prop where
  provider : b.provider = provider
  shapes : ∀ id e, b.exprs.get? id = some e → e.outputShapes = e.node.outputShapes

theorem AsDeclared.push (h : AsDeclared provider b) (node : Node) (inputs : List ConnectorId) :
    AsDeclared provider (b.push node inputs).2 := by
  rw [Body.push]
  rcases insert_cases b b.order.length node inputs with
    ⟨err, -, heq⟩ | ⟨-, -, heq⟩ | ⟨-, -, e, b', heq, hinserted⟩
  · rw [heq]
    exact h
  · rw [heq]
    exact ⟨h.provider, h.shapes⟩
  · rw [heq]
    refine ⟨hinserted.provider.trans h.provider, fun id e' he' => ?_⟩
    rcases hinserted.expr_cases he' with ⟨-, rfl⟩ | ⟨-, he'⟩
    · rw [hinserted.made.outputShapes (length_freshOutputs b node), hinserted.made.node]
    · exact h.shapes id e' he'

theorem asDeclared_ofModel {m : Model} (h : ofModel m provider = .ok b) : AsDeclared provider b :=
  lowerNodes_keeps (fun _ node inputs hb => hb.push node inputs)
    ⟨rfl, fun id e he => by simp [empty] at he⟩ h

/-- The first body is the model, lowered, and the second is left by an inference that was given the
shapes. -/
structure InferredFrom (m : Model) (provider : Option Provider) (shapes : List Shape)
    (b b' : Body) : Prop where
  mirrors : Mirrors b m.nodes m.nodes.length
  declared : AsDeclared provider b
  retouched : Retouched b b'
  given : Given b b' (boundaryOf m.nodes .input) shapes

variable {m : Model} {shapes : List Shape} {b' : Body}

/-- Inference over the body of a model stops at some expression, or it settles them all. -/
theorem inferred_ofModel (hwell : m.WellFormed) (provider : Option Provider)
    (hfits : shapes = [] ∨ shapes.length = (boundaryOf m.nodes .input).length) :
    ∃ b b', ofModel m provider = .ok b ∧ InferredFrom m provider shapes b b' ∧
      ((∃ err before p, b.inferShapes shapes = (.error err, b') ∧ b'.StoppedAt before p err) ∨
      ∃ out, b.inferShapes shapes = (.ok out, b') ∧ b'.SettledIn b'.order ∧
        (boundaryOf m.nodes .output).map (fun id => b'.shapeAt ⟨id, .input, 0⟩) =
          out.map .ok) := by
  obtain ⟨b, hlowered, hb⟩ := mirrors_ofModel hwell provider
  have hparams := hb.byOrdinal_boundaryOf .input
  obtain ⟨b', hr, hcases⟩ :=
    hb.toCoherent.outcome hparams (hb.byOrdinal_boundaryOf .output) hfits
  have hdeclared := asDeclared_ofModel hlowered
  refine ⟨b, b', hlowered, ?_⟩
  rcases hcases with ⟨err, heq, hstopped⟩ | ⟨out, heq, hsolved⟩
  · obtain ⟨before, p, hstop⟩ := hstopped.stoppedAt hparams hr
    exact ⟨⟨hb, hdeclared, hr, hstopped.toGiven⟩, .inl ⟨err, before, p, heq, hstop⟩⟩
  · have hsettled := hsolved.settledIn hparams hr (hb.toWired.retouched hr)
    exact ⟨⟨hb, hdeclared, hr, hsolved.toGiven⟩, .inr ⟨out, heq, hsettled, hsolved.results⟩⟩

theorem InferredFrom.wired (h : InferredFrom m provider shapes b b') : Wired b' :=
  h.mirrors.toWired.retouched h.retouched

theorem InferredFrom.order (h : InferredFrom m provider shapes b b') :
    b'.order = (List.range m.nodes.length).map ExprId.mk :=
  h.retouched.order.trans h.mirrors.order

theorem InferredFrom.mem_order (h : InferredFrom m provider shapes b b') {id : ExprId} :
    id ∈ b'.order ↔ id.index < m.nodes.length := by
  rw [h.order, List.mem_map]
  constructor
  · rintro ⟨k, hk, rfl⟩
    exact List.mem_range.mp hk
  · intro hid
    exact ⟨id.index, List.mem_range.mpr hid, rfl⟩

/-! ## Two bodies -/

/-- The expression of a number below the bound has its counterpart at the place of the number. -/
def MovedTo (place : Nat → Nat) (count : Nat) (p q : ExprId) : Prop :=
  p.index < count ∧ q = ⟨place p.index⟩

theorem Mirrors.corresponds (hb : Mirrors b nodes nodes.length)
    (hc : Mirrors c nodes' nodes'.length) (hwell : (Model.mk nodes).WellFormed)
    (hprovider : b.provider = provider) (hprovider' : c.provider = provider)
    (h : Embeds place provider nodes nodes') :
    Corresponds (MovedTo place nodes.length) Eq b c := by
  rintro ⟨k⟩ _ ⟨hk, rfl⟩
  obtain ⟨n, hn⟩ : ∃ n, nodes[k]? = some n := ⟨_, List.getElem?_eq_getElem hk⟩
  obtain ⟨n', hn', hnn'⟩ := h k n hn
  obtain ⟨e, he, hfrom⟩ := hb.expr hn
  obtain ⟨e', he', hfrom'⟩ := hc.expr hn'
  refine ⟨e, e', he, he', ?_, ?_, fun hside operands operands' out hoperands hout => ?_⟩
  · rw [hfrom.node, hfrom'.node, hnn'.side]
  · rw [hfrom.inputs, hfrom'.inputs, hnn'.inputs, List.map_map, List.forall₂_map_left_iff,
      List.forall₂_map_right_iff]
    refine List.forall₂_same.mpr fun ref href => ?_
    -- The output that is read has its connector in either body.
    have hresolves := resolves_of_take ((hwell k n hn).2 ref href)
    obtain ⟨x, hx, hsource⟩ := (hb.feeds_iff _ _).mp (hb.feeds_connectorOf hresolves)
    obtain ⟨y, hy, hsource'⟩ :=
      (hc.feeds_iff _ _).mp (hc.feeds_connectorOf (h.resolves hresolves))
    refine ⟨x, y, hx, hy, ?_, ?_⟩
    · rw [hsource, hsource']
      obtain ⟨producer, hproducer, -⟩ := hresolves
      exact ⟨(List.getElem?_eq_some_iff.mp hproducer).1, rfl⟩
    · rw [hsource, hsource']
      rfl
  · rw [hfrom.node] at hside
    have hstrategy : e'.strategy = e.strategy := by
      rw [(hb.installed _ e he).strategy, (hc.installed _ e' he').strategy, hprovider, hprovider',
        hfrom.node, hfrom'.node, hnn'.strategy hside]
    have hop : e'.node.op = e.node.op := by rw [hfrom.node, hfrom'.node, hnn'.op hside]
    rw [List.forall₂_eq_eq_eq] at hoperands
    subst hoperands
    refine ⟨out, ?_, List.forall₂_same.mpr fun _ _ => rfl⟩
    rw [Expression.attempt_congr hop hstrategy, hout]

end Body

end TensorIR
