import TensorIR.Proofs.Body.Inference

/-!
# The first part of a body

A body can be cut off at a position of its schedule: what runs from there on is removed, the last
expression first (`cutOff`). No removal is refused, since whoever reads an expression runs after it.
What is left is a body in its own right, with the expressions that ran before the position and the
connectors that these feed.

Such a part behaves as it did in the whole. Two bodies may differ in any way outside the first
expressions of one of them (`AgreeOn`): bringing these up to date has the same outcome in both, and
the bodies agree on them afterwards (`AgreeOn.updateAll`).
-/

set_option autoImplicit false

namespace TensorIR.Body

variable {b b' c c' d : Body} {ids rest : List ExprId} {id p q : ExprId} {e : Expression}
  {pairs : List (ExprId × Shape)}

/-! ## Bodies that agree -/

/-- The second body has the listed expressions of the first, and the connectors that these feed are
fed by the same outputs. Who reads the connectors may differ. -/
structure AgreeOn (ids : List ExprId) (b c : Body) : Prop where
  exprs : ∀ id ∈ ids, c.exprs.get? id = b.exprs.get? id
  sources : ∀ x k, b.connectors.get? x = some k → k.source.expr ∈ ids →
    ∃ l, c.connectors.get? x = some l ∧ l.source = k.source

theorem AgreeOn.refl (ids : List ExprId) (b : Body) : AgreeOn ids b b :=
  ⟨fun _ _ => rfl, fun _ k hk _ => ⟨k, hk, rfl⟩⟩

theorem AgreeOn.trans (h : AgreeOn ids b c) (h' : AgreeOn ids c d) : AgreeOn ids b d where
  exprs id hid := (h'.exprs id hid).trans (h.exprs id hid)
  sources x k hk hsource := by
    obtain ⟨l, hl, hlk⟩ := h.sources x k hk hsource
    obtain ⟨m, hm, hml⟩ := h'.sources x l hl (hlk ▸ hsource)
    exact ⟨m, hm, hml.trans hlk⟩

theorem AgreeOn.mono {ids' : List ExprId} (h : AgreeOn ids b c) (hsub : ids' ⊆ ids) :
    AgreeOn ids' b c :=
  ⟨fun id hid => h.exprs id (hsub hid), fun x k hk hsource => h.sources x k hk (hsub hsource)⟩

/-- The agreement is about the expressions and the sources of connectors only. -/
theorem AgreeOn.congr (h : AgreeOn ids b c) (hb : b'.connectors = b.connectors)
    (hc : c'.connectors = c.connectors)
    (hexprs : ∀ id ∈ ids, c'.exprs.get? id = b'.exprs.get? id) : AgreeOn ids b' c' where
  exprs := hexprs
  sources x k hk := by
    rw [hc]
    exact h.sources x k (hb ▸ hk)

/-! ## Inference on what agrees -/

theorem Wired.mem_of_runsBefore_mem (h : Wired b) (hinitial : ids <+: b.order) (hq : q ∈ ids)
    (hpq : b.RunsBefore p q) : p ∈ ids := by
  obtain ⟨rest, horder⟩ := hinitial
  obtain ⟨before, after, rfl⟩ := List.append_of_mem hq
  have : p ∈ before := h.mem_of_runsBefore (by rw [← horder, List.append_assoc]; rfl) hpq
  exact List.mem_append_left _ this

/-- What reaches the first expressions is the same in bodies that agree on them. -/
theorem AgreeOn.carriedShape (h : AgreeOn ids b c) (hw : Wired b) (hinitial : ids <+: b.order)
    (hid : id ∈ ids) (he : b.exprs.get? id = some e) {x : ConnectorId}
    (hx : x ∈ e.inputConnectors) : c.carriedShape x = b.carriedShape x := by
  obtain ⟨i, hreads⟩ := Reads.of_mem he hx
  obtain ⟨k, hk⟩ := hw.live_of_reads hreads
  have hsource : k.source.expr ∈ ids :=
    hw.mem_of_runsBefore_mem hinitial hid (hw.ordered ⟨id, i⟩ x k hreads hk)
  obtain ⟨l, hl, hlk⟩ := h.sources x k hk hsource
  rw [carriedShape_eq hl, carriedShape_eq hk, Connector.sourcePort, Connector.sourcePort, hlk]
  exact shapeAt_congr (h.exprs _ hsource)

theorem AgreeOn.updateShapes (h : AgreeOn ids b c) (hw : Wired b) (hinitial : ids <+: b.order)
    (hid : id ∈ ids) : (c.updateShapes id).1 = (b.updateShapes id).1 ∧
      AgreeOn ids (b.updateShapes id).2 (c.updateShapes id).2 := by
  obtain ⟨e, he⟩ := (hw.mem_order id).mp (hinitial.subset hid)
  obtain ⟨operands, hoperands, -⟩ := hw.exists_carried he
  have hcarried : e.inputConnectors.map c.carriedShape = operands.map .ok := by
    rw [← hoperands]
    exact List.map_congr_left fun x hx => h.carriedShape hw hinitial hid he hx
  rw [updateShapes_of_carried he hoperands,
    updateShapes_of_carried ((h.exprs id hid).trans he) hcarried]
  refine ⟨rfl, h.congr rfl rfl fun other hother => ?_⟩
  dsimp only
  rw [OrderedMap.get?_insert, OrderedMap.get?_insert, h.exprs other hother]

/-- Bringing some of the first expressions up to date has the same outcome in both bodies. -/
theorem AgreeOn.updateAll {todo : List ExprId} (h : AgreeOn ids b c) (hw : Wired b)
    (hinitial : ids <+: b.order) (htodo : todo ⊆ ids) :
    (updateAll c todo).1 = (updateAll b todo).1 ∧
      AgreeOn ids (updateAll b todo).2 (updateAll c todo).2 := by
  -- Along the expressions to do, for both bodies at once: an update keeps the body wired, leaves
  -- its order alone, and leaves the bodies in agreement.
  induction todo generalizing b c with
  | nil => exact ⟨rfl, h⟩
  | cons id todo ih =>
    obtain ⟨hid, htodo⟩ := List.cons_subset.mp htodo
    obtain ⟨houtcome, hagree⟩ := h.updateShapes hw hinitial hid
    have hretouched := retouched_updateShapes b id
    have hrest := ih hagree (hw.retouched hretouched) (hretouched.order ▸ hinitial) htodo
    rw [Body.updateAll, Body.updateAll]
    revert houtcome hagree hrest
    rcases b.updateShapes id with ⟨_ | ⟨⟩, b₁⟩ <;> rcases c.updateShapes id with ⟨_ | ⟨⟩, c₁⟩
    · exact fun houtcome hagree _ => ⟨houtcome, hagree⟩
    · intro houtcome
      cases houtcome
    · intro houtcome
      cases houtcome
    · exact fun _ _ hrest => hrest

/-- Bodies that agree still do when the first expressions among them are given the same shapes. -/
theorem AgreeOn.overridden (h : AgreeOn ids b c) (hb : b'.connectors = b.connectors)
    (hc : c'.connectors = c.connectors) (hoverridden : Overridden b b' pairs)
    (hsome : Overridden c c' (pairs.filter (·.1 ∈ ids))) : AgreeOn ids b' c' := by
  refine h.congr hb hc fun id hid => ?_
  by_cases hgiven : ∃ shape, (id, shape) ∈ pairs
  · obtain ⟨shape, hp⟩ := hgiven
    obtain ⟨e, e', he, hmodify, he'⟩ := hoverridden.given _ hp
    obtain ⟨f, f', hf, hmodify', hf'⟩ :=
      hsome.given (id, shape) (List.mem_filter.mpr ⟨hp, decide_eq_true hid⟩)
    obtain rfl : e = f := Option.some.inj (he.symm.trans ((h.exprs id hid).symm.trans hf))
    obtain rfl : e' = f' := Except.ok.inj (hmodify.symm.trans hmodify')
    exact hf'.trans he'.symm
  · have hnot : id ∉ pairs.map Prod.fst := fun hmem => by
      obtain ⟨⟨_, shape⟩, hp, rfl⟩ := List.mem_map.mp hmem
      exact hgiven ⟨shape, hp⟩
    rw [hoverridden.kept id hnot, hsome.kept id fun hmem => hnot ?_, h.exprs id hid]
    exact (List.filter_sublist.map Prod.fst).subset hmem

/-! ## Cutting off -/

theorem Wired.last_notMem (h : Wired b) (horder : b.order = ids ++ [id]) : id ∉ ids := fun hid => by
  have hnodup := h.nodup
  rw [horder, List.nodup_append] at hnodup
  exact hnodup.2.2 id hid id (List.mem_singleton_self id) rfl

/-- Nobody reads what runs last. -/
theorem Wired.unread_last (h : Wired b) (horder : b.order = ids ++ [id])
    (he : b.exprs.get? id = some e) : b.Unread e := by
  intro x hx slot hreads
  obtain ⟨k, hk⟩ := h.live_of_reads hreads
  obtain rfl : k.source.expr = id := (h.source_expr_iff he hk).mpr hx
  have hbefore : b.RunsBefore k.source.expr slot.expr := h.ordered slot x k hreads hk
  have hreader : slot.expr ∈ ids := by
    have hlive : slot.expr ∈ b.order := (h.mem_order _).mpr (hreads.imp fun _ hr => hr.1)
    rw [horder, List.mem_append, List.mem_singleton] at hlive
    exact hlive.resolve_right (h.ne_of_runsBefore hbefore).symm
  exact h.last_notMem horder (h.mem_of_runsBefore_mem ⟨_, horder.symm⟩ hreader hbefore)

/-- What runs last can be removed, and everything before it stays as it is. -/
theorem Coherent.remove_last (h : Coherent b) (horder : b.order = ids ++ [id]) :
    Coherent (b.remove id).2 ∧ (b.remove id).2.order = ids ∧ AgreeOn ids b (b.remove id).2 := by
  obtain ⟨e, he⟩ : ∃ e, b.exprs.get? id = some e := (h.mem_order id).mp (by simp [horder])
  have hunread : b.Unread e := h.toWired.unread_last horder he
  have hlast : ∀ other ∈ ids, other ≠ id := fun other hother heq =>
    h.toWired.last_notMem horder (heq ▸ hother)
  rcases h.toWired.remove_cases id with ⟨err, hread, -⟩ | ⟨e', b', he', -, heq, hremoved⟩
  · exact absurd hunread (hread e he)
  obtain rfl := Option.some.inj (he.symm.trans he')
  rw [heq]
  refine ⟨h.removed he hunread hremoved, ?_, fun other hother => ?_, fun x k hk hsource => ?_⟩
  · rw [hremoved.order, horder, List.filter_append,
      List.filter_eq_self.mpr fun other hother => decide_eq_true (hlast other hother)]
    simp
  · rw [hremoved.exprs]
    exact OrderedMap.get?_erase_of_ne _ (hlast other hother)
  · have hkept : x ∉ e.outputConnectors := fun hx =>
      hlast _ hsource ((h.toWired.source_expr_iff he hk).mpr hx)
    exact ⟨_, hremoved.connector_iff.mpr ⟨hkept, k, hk, rfl⟩, Connector.source_dropReaders ..⟩

/-- The body without what runs from a position on, removed from the end. -/
def cutOff (b : Body) (position : Nat) : Body :=
  (b.order.drop position).reverse.foldl (fun c id => (c.remove id).2) b

theorem Reachable.cutOff (h : Reachable b) (position : Nat) : Reachable (b.cutOff position) := by
  rw [Body.cutOff]
  generalize (b.order.drop position).reverse = removed
  induction removed generalizing b with
  | nil => exact h
  | cons id removed ih => exact ih (h.step (.remove id))

theorem Coherent.removeAll {removed : List ExprId} (h : Coherent b)
    (horder : b.order = ids ++ removed.reverse) :
    Coherent (removed.foldl (fun c id => (c.remove id).2) b) ∧
      (removed.foldl (fun c id => (c.remove id).2) b).order = ids ∧
      AgreeOn ids b (removed.foldl (fun c id => (c.remove id).2) b) := by
  induction removed generalizing b with
  | nil => exact ⟨h, by rw [List.foldl_nil, horder, List.reverse_nil, List.append_nil], .refl ids b⟩
  | cons id removed ih =>
    rw [List.reverse_cons, ← List.append_assoc] at horder
    obtain ⟨hcoherent, horder', hagree⟩ := h.remove_last horder
    obtain ⟨hcoherent', horder'', hagree'⟩ := ih hcoherent horder'
    exact ⟨hcoherent', horder'', (hagree.mono (List.subset_append_left ..)).trans hagree'⟩

/-- What is left of a body has the schedule up to the position, and agrees with the body on it. -/
theorem Coherent.cutOff (h : Coherent b) (horder : b.order = ids ++ rest) :
    Coherent (b.cutOff ids.length) ∧ (b.cutOff ids.length).order = ids ∧
      AgreeOn ids b (b.cutOff ids.length) := by
  have hdrop : b.order.drop ids.length = rest := by rw [horder, List.drop_left]
  rw [Body.cutOff, hdrop]
  exact h.removeAll (by rw [horder, List.reverse_reverse])

/-! ## Inference over the first part -/

/-- The shapes for those parameters that are listed. -/
def shapesFor (ids params : List ExprId) (shapes : List Shape) : List Shape :=
  ((params.zip shapes).filter (·.1 ∈ ids)).map Prod.snd

theorem filter_eq_map_fst {params : List ExprId} {shapes : List Shape}
    (hlength : shapes.length = params.length) :
    params.filter (· ∈ ids) = ((params.zip shapes).filter (·.1 ∈ ids)).map Prod.fst := by
  conv_lhs => rw [← List.map_fst_zip (Nat.le_of_eq hlength.symm)]
  rw [List.filter_map]
  rfl

theorem zip_shapesFor {params : List ExprId} {shapes : List Shape}
    (hfits : shapes = [] ∨ shapes.length = params.length) :
    (params.filter (· ∈ ids)).zip (shapesFor ids params shapes) =
      (params.zip shapes).filter (·.1 ∈ ids) := by
  rcases hfits with rfl | hlength
  · simp [shapesFor]
  · rw [shapesFor, filter_eq_map_fst hlength, List.zip_map']
    exact List.map_id _

theorem shapesFor_fits {params : List ExprId} {shapes : List Shape}
    (hfits : shapes = [] ∨ shapes.length = params.length) :
    shapesFor ids params shapes = [] ∨
      (shapesFor ids params shapes).length = (params.filter (· ∈ ids)).length := by
  rcases hfits with rfl | hlength
  · exact .inl (by simp [shapesFor])
  · exact .inr (by rw [shapesFor, filter_eq_map_fst hlength, List.length_map, List.length_map])

/-- A part of a body has the parameters of the body that are in the part, in their order. -/
theorem AgreeOn.byOrdinal {side : Direction} {boundary : List ExprId} (h : AgreeOn ids b c)
    (hc : Wired c) (horder : c.order = ids) (hb : b.ByOrdinal side boundary) :
    c.ByOrdinal side (boundary.filter (· ∈ ids)) where
  mem_iff id := by
    rw [List.mem_filter, hb.mem_iff, decide_eq_true_iff]
    simp only [expr_eq_ok_iff]
    constructor
    · intro hx
      obtain ⟨⟨e, he, hside⟩, hid⟩ := hx
      exact ⟨e, (h.exprs id hid).trans he, hside⟩
    · intro hx
      obtain ⟨e, he, hside⟩ := hx
      have hid : id ∈ ids := horder ▸ (hc.mem_order id).mpr ⟨e, he⟩
      exact ⟨⟨e, (h.exprs id hid).symm.trans he, hside⟩, hid⟩
  ascending := by
    refine (hb.ascending.filter _).imp_of_mem fun {p q} hp hq hpq => ?_
    obtain ⟨e, f, r, s, he, hf, hrest⟩ := hpq
    have hp : p ∈ ids := of_decide_eq_true (List.mem_filter.mp hp).2
    have hq : q ∈ ids := of_decide_eq_true (List.mem_filter.mp hq).2
    simp only [expr_eq_ok_iff] at he hf ⊢
    exact ⟨e, f, r, s, (h.exprs p hp).trans he, (h.exprs q hq).trans hf, hrest⟩

/-- An inference gets through the first part of a body exactly as it does when the part stands
alone and is given the shapes for its own parameters. -/
theorem Coherent.inferShapes_part (h : Coherent b) (hc : Coherent c) (hagree : AgreeOn ids b c)
    (horder : b.order = ids ++ rest) (hcut : c.order = ids) {shapes : List Shape}
    (hfits : shapes = [] ∨ shapes.length = b.parameterIds.length) {fed m : Body}
    (hfed : overrideShapes b (b.parameterIds.zip shapes) = (.ok (), fed))
    (hoverridden : Overridden b fed (b.parameterIds.zip shapes))
    (hran : updateAll fed (ids.filter (· ∉ b.parameterIds)) = (.ok (), m)) :
    ∃ out c', c.inferShapes (shapesFor ids b.parameterIds shapes) = (.ok out, c') ∧
      AgreeOn ids m c' := by
  have hparams : c.parameterIds = b.parameterIds.filter (· ∈ ids) :=
    (hc.byOrdinal_boundaryIds .input).unique
      (hagree.byOrdinal hc.toWired hcut (h.byOrdinal_boundaryIds .input))
  have hfits' : shapesFor ids b.parameterIds shapes = [] ∨
      (shapesFor ids b.parameterIds shapes).length = c.parameterIds.length :=
    hparams ▸ shapesFor_fits hfits
  obtain ⟨fed', outcome, c', hstages⟩ := hc.stages hfits'
  have hretouched : Retouched b fed := retouched_of_overrideShapes hfed
  have hgiven : AgreeOn ids fed fed' := by
    refine hagree.overridden hretouched.connectors hstages.retouched_fed.connectors hoverridden ?_
    have hoverridden' := hstages.overridden
    rwa [hparams, zip_shapesFor hfits] at hoverridden'
  have hinitial : ids <+: fed.order := by
    rw [hretouched.order, horder]
    exact List.prefix_append ids rest
  obtain ⟨houtcome, hafter⟩ := hgiven.updateAll (h.toWired.retouched hretouched) hinitial
    (List.filter_sublist (p := (· ∉ b.parameterIds))).subset
  -- What is a parameter of the part and what is one of the body is the same within the part.
  have htodo : c.order.filter (· ∉ c.parameterIds) = ids.filter (· ∉ b.parameterIds) := by
    rw [hcut, hparams]
    exact List.filter_congr fun id hid => by simp [hid]
  rw [hran, ← htodo, hstages.pass] at houtcome hafter
  obtain rfl : outcome = .ok () := houtcome
  obtain ⟨out, hout, -⟩ := (hc.retouched hstages.retouched).resultShapes_ok
  exact ⟨out, c', by rw [hstages.answer, ← hout]; rfl, hafter⟩

end TensorIR.Body
