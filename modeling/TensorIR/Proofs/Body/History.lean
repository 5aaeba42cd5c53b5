import TensorIR.Proofs.Body.Boundary
import TensorIR.Proofs.Body.Reachable

/-!
# Numbers and ordinals over a history

What the supplies of a body have handed out is not recorded anywhere, so that nothing is handed out
twice cannot be said of a body by itself. It is said of a body and any later one: the supplies have
not gone back, and a number below the supply whose thing is gone stays without a thing (`Grown`).
Every call has this property (`Coherent.grown_after`), and so has any history of calls.

An insertion takes its numbers and its ordinal from the supplies as they are and leaves them above.
Between two insertions they have not gone back, so the later one gets greater ones, whatever has
happened in between. A removal takes away numbers that are below the supplies, so they stay away.
-/

set_option autoImplicit false

namespace TensorIR.Body

variable {b b' : Body}

/-! ## Supplies that only grow -/

/-- The second body is a later one: what is gone in the first is gone for good. -/
structure Grown (b b' : Body) : Prop where
  nextExpr : b.ids.nextExpr ≤ b'.ids.nextExpr
  nextConnector : b.ids.nextConnector ≤ b'.ids.nextConnector
  nextOrdinal : ∀ side, b.nextOrdinal side ≤ b'.nextOrdinal side
  expr_gone : ∀ id : ExprId, id.index < b.ids.nextExpr → b.exprs.get? id = none →
    b'.exprs.get? id = none
  connector_gone : ∀ c : ConnectorId, c.index < b.ids.nextConnector →
    b.connectors.get? c = none → b'.connectors.get? c = none

theorem Grown.refl (b : Body) : Grown b b where
  nextExpr := Nat.le_refl _
  nextConnector := Nat.le_refl _
  nextOrdinal _ := Nat.le_refl _
  expr_gone _ _ h := h
  connector_gone _ _ h := h

theorem Grown.trans {b₁ b₂ b₃ : Body} (h : Grown b₁ b₂) (h' : Grown b₂ b₃) : Grown b₁ b₃ where
  nextExpr := Nat.le_trans h.nextExpr h'.nextExpr
  nextConnector := Nat.le_trans h.nextConnector h'.nextConnector
  nextOrdinal side := Nat.le_trans (h.nextOrdinal side) (h'.nextOrdinal side)
  expr_gone id hid hgone :=
    h'.expr_gone id (Nat.lt_of_lt_of_le hid h.nextExpr) (h.expr_gone id hid hgone)
  connector_gone c hc hgone :=
    h'.connector_gone c (Nat.lt_of_lt_of_le hc h.nextConnector) (h.connector_gone c hc hgone)

/-- A call that hands out no numbers and brings nothing back. -/
theorem grown_of_kept (hids : b'.ids = b.ids)
    (hordinal : ∀ side, b'.nextOrdinal side = b.nextOrdinal side)
    (hexprs : ∀ id, b.exprs.get? id = none → b'.exprs.get? id = none)
    (hconnectors : ∀ c, b.connectors.get? c = none → b'.connectors.get? c = none) :
    Grown b b' where
  nextExpr := Nat.le_of_eq (by rw [hids])
  nextConnector := Nat.le_of_eq (by rw [hids])
  nextOrdinal side := Nat.le_of_eq (hordinal side).symm
  expr_gone id _ := hexprs id
  connector_gone c _ := hconnectors c

theorem Retouched.grown (h : Retouched b b') : Grown b b' :=
  grown_of_kept h.ids h.nextOrdinal (fun _ hid => h.get?_eq_none hid)
    (fun c hc => by rw [h.connectors, hc])

theorem Removed.grown {id : ExprId} {e : Expression} (h : Removed b id e b') : Grown b b' := by
  refine grown_of_kept h.ids h.nextOrdinal (fun id' hid' => ?_) (fun c hc => ?_)
  · rw [h.exprs, OrderedMap.get?_erase, hid', ite_self]
  · rw [h.connectors, hc, Option.map_none, ite_self]

theorem Rewired.grown {slot : Slot} {previous target : ConnectorId}
    (h : Rewired b slot previous target b') : Grown b b' := by
  refine grown_of_kept h.ids h.nextOrdinal (fun id hid => ?_) (fun c hc => ?_)
  · refine Option.eq_none_iff_forall_ne_some.mpr fun e' he' => ?_
    obtain ⟨e, he, -⟩ := h.before he'
    rw [hid] at he
    cases he
  · rw [h.connectors, hc, Option.map_none]

theorem Inserted.grown {position : Nat} {node : Node} {inputs : List ConnectorId} {e : Expression}
    (h : Inserted b position node inputs e b') : Grown b b' where
  nextExpr := by rw [h.ids]; exact Nat.le_succ _
  nextConnector := by rw [h.ids]; exact Nat.le_add_right _ _
  nextOrdinal side := by
    rw [h.nextOrdinal]
    split <;> omega
  expr_gone id hid hgone := by
    have hne : id ≠ b.freshId := by
      rintro rfl
      exact absurd hid (Nat.lt_irrefl _)
    rw [h.exprs, OrderedMap.get?_insert_of_ne _ _ hne, hgone]
  connector_gone c hc hgone := by
    have hnot : c ∉ b.freshOutputs node := fun hmem =>
      absurd hc (Nat.not_lt.mpr (le_of_mem_freshOutputs hmem).1)
    rw [h.old c hnot, hgone, Option.map_none]

theorem grown_insert (b : Body) (position : Nat) (node : Node) (inputs : List ConnectorId) :
    Grown b (b.insert position node inputs).2 := by
  rcases insert_cases b position node inputs with
    ⟨err, -, heq⟩ | ⟨-, -, heq⟩ | ⟨-, -, e, b', heq, hinserted⟩
  · rw [heq]
    exact .refl b
  · rw [heq]
    exact { Grown.refl b with
      nextExpr := Nat.le_succ _
      nextConnector := Nat.le_add_right _ _ }
  · rw [heq]
    exact hinserted.grown

theorem Coherent.grown_after (h : Coherent b) (action : Action) : Grown b (b.after action) := by
  cases action with
  | insert position node inputs => exact grown_insert b position node inputs
  | push node inputs => exact grown_insert b b.order.length node inputs
  | remove id =>
    rw [Body.after]
    rcases h.toWired.remove_cases id with ⟨err, -, heq⟩ | ⟨e, b', -, -, heq, hremoved⟩
    · rw [heq]
      exact .refl b
    · rw [heq]
      exact hremoved.grown
  | replaceInput port target =>
    rw [Body.after]
    rcases h.toWired.replaceInput_cases port target with
      ⟨err, -, heq⟩ | ⟨-, heq⟩ | ⟨previous, b', -, -, -, heq, hrewired⟩
    · rw [heq]
      exact .refl b
    · rw [heq]
      exact .refl b
    · rw [heq]
      exact hrewired.grown
  | updateShapes id => exact (retouched_updateShapes b id).grown
  | inferShapes shapes => exact (retouched_inferShapes b shapes).grown
  | initEmitters target => exact (retouched_initEmitters b target).grown
  | feed id operands =>
    exact (retouched_onExpr (fun e => e.retouched_updateShapes operands) b id).grown
  | edit id change => exact (retouched_editExpr (fun _ _ => change.retouched) b id).grown

/-! ## Histories -/

/-- The body after calls, one after the other. -/
def run (b : Body) (actions : List Action) : Body := actions.foldl Body.after b

theorem run_append (b : Body) (earlier later : List Action) :
    b.run (earlier ++ later) = (b.run earlier).run later :=
  List.foldl_append

theorem Reachable.run (h : Reachable b) (actions : List Action) : Reachable (b.run actions) := by
  induction actions generalizing b with
  | nil => exact h
  | cons action actions ih => exact ih (h.step action)

theorem Reachable.grown_run (h : Reachable b) (actions : List Action) :
    Grown b (b.run actions) := by
  induction actions generalizing b with
  | nil => exact .refl b
  | cons action actions ih => exact (h.coherent.grown_after action).trans (ih (h.step action))

/-- The call infers shapes, of one expression or of all, and does nothing else. -/
def Action.InfersShapes : Action → Prop
  | .updateShapes _ | .inferShapes _ | .feed _ _ => True
  | .insert .. | .push .. | .remove _ | .replaceInput .. | .initEmitters _ | .edit .. => False

theorem Action.InfersShapes.retouched {action : Action} (h : action.InfersShapes) (b : Body) :
    Retouched b (b.after action) := by
  cases action with
  | updateShapes id => exact retouched_updateShapes b id
  | inferShapes shapes => exact retouched_inferShapes b shapes
  | feed id operands => exact retouched_onExpr (fun e => e.retouched_updateShapes operands) b id
  | insert | push | remove | replaceInput | initEmitters | edit => cases h

theorem retouched_run {calls : List Action} (h : ∀ call ∈ calls, call.InfersShapes) (b : Body) :
    Retouched b (b.run calls) := by
  induction calls generalizing b with
  | nil => exact .refl b
  | cons call calls ih =>
    obtain ⟨hcall, hcalls⟩ := List.forall_mem_cons.mp h
    exact (hcall.retouched b).trans (ih hcalls (b.after call))

/-- The body after so many calls of a history that starts without expressions. -/
def stateAt (provider : Option Provider) (actions : List Action) (count : Nat) : Body :=
  (empty provider).run (actions.take count)

section Histories

variable {provider : Option Provider} {actions : List Action} {i j : Nat}

theorem reachable_stateAt (provider : Option Provider) (actions : List Action) (count : Nat) :
    Reachable (stateAt provider actions count) :=
  (Reachable.empty provider).run _

theorem stateAt_succ {action : Action} (h : actions[i]? = some action) :
    stateAt provider actions (i + 1) = (stateAt provider actions i).after action := by
  rw [stateAt, List.take_add_one, h, run_append]
  rfl

theorem grown_stateAt (h : i ≤ j) :
    Grown (stateAt provider actions i) (stateAt provider actions j) := by
  have hsplit : actions.take j = actions.take i ++ (actions.take j).drop i := by
    have := List.take_append_drop i (actions.take j)
    rwa [List.take_take, Nat.min_eq_left h, eq_comm] at this
  have hlater : stateAt provider actions j =
      (stateAt provider actions i).run ((actions.take j).drop i) := by
    conv_lhs => rw [stateAt, hsplit, run_append]
    rfl
  rw [hlater]
  exact (reachable_stateAt provider actions i).grown_run _

end Histories

/-! ## What insertions and removals do to the supplies -/

/-- The number of the expression that a call inserts, if it is an insertion that goes through. -/
def created? (b : Body) : Action → Option ExprId
  | .insert position node inputs => (b.insert position node inputs).1.toOption
  | .push node inputs => (b.push node inputs).1.toOption
  | _ => none

theorem inserted_of_insert {position : Nat} {node : Node} {inputs : List ConnectorId} {id : ExprId}
    (h : (b.insert position node inputs).1.toOption = some id) :
    id = b.freshId ∧ ∃ e, Inserted b position node inputs e (b.insert position node inputs).2 := by
  rcases insert_cases b position node inputs with
    ⟨err, -, heq⟩ | ⟨-, -, heq⟩ | ⟨-, -, e, b', heq, hinserted⟩
  · rw [heq] at h
    cases h
  · rw [heq] at h
    cases h
  · rw [heq] at h ⊢
    exact ⟨(Option.some.inj h).symm, e, hinserted⟩

theorem inserted_of_created {action : Action} {id : ExprId} (h : b.created? action = some id) :
    id = b.freshId ∧ ∃ position node inputs e,
      Inserted b position node inputs e (b.after action) := by
  cases action with
  | insert position node inputs =>
    obtain ⟨hid, e, hinserted⟩ := inserted_of_insert h
    exact ⟨hid, position, node, inputs, e, hinserted⟩
  | push node inputs =>
    obtain ⟨hid, e, hinserted⟩ := inserted_of_insert h
    exact ⟨hid, b.order.length, node, inputs, e, hinserted⟩
  | remove | replaceInput | updateShapes | inferShapes | initEmitters | feed | edit => cases h

section Insertion

variable {position : Nat} {node : Node} {inputs : List ConnectorId} {e : Expression}

theorem pairwise_freshOutputs (b : Body) (node : Node) :
    (b.freshOutputs node).Pairwise fun c c' => c.index < c'.index := by
  refine List.pairwise_map.mpr (List.pairwise_lt_range.imp fun {i j} hlt => ?_)
  exact Nat.add_lt_add_left hlt _

/-- The connectors of a new expression are between the supplies before and after it. -/
theorem Inserted.connector_between (h : Inserted b position node inputs e b') {c : ConnectorId}
    (hc : c ∈ e.outputConnectors) :
    b.ids.nextConnector ≤ c.index ∧ c.index < b'.ids.nextConnector := by
  rw [h.outputConnectors] at hc
  rw [h.ids]
  exact le_of_mem_freshOutputs hc

/-- The ordinal of a new expression is the next one of its side, and is used up. -/
theorem Inserted.role (h : Inserted b position node inputs e b') :
    e.role = b.nextRole e.node ∧ ∀ role, e.role = some role →
      role.ordinal = b.nextOrdinal role.side ∧ role.ordinal < b'.nextOrdinal role.side := by
  refine ⟨by rw [h.made.role, h.made.node], fun role hrole => ?_⟩
  rw [h.made.role] at hrole
  obtain ⟨hside, hordinal⟩ := nextRole_eq_some_iff.mp hrole
  rw [h.nextOrdinal, if_pos hside, hordinal]
  exact ⟨rfl, by omega⟩

end Insertion

/-- An insertion that fails may use up numbers, but no ordinal. -/
theorem nextOrdinal_insert_error {position : Nat} {node : Node} {inputs : List ConnectorId}
    {err : IrError} (h : (b.insert position node inputs).1 = .error err) (side : Direction) :
    (b.insert position node inputs).2.nextOrdinal side = b.nextOrdinal side := by
  rcases insert_cases b position node inputs with
    ⟨err, -, heq⟩ | ⟨-, -, heq⟩ | ⟨-, -, e, b', heq, -⟩
  · rw [heq]
  · rw [heq]
    cases side <;> rfl
  · rw [heq] at h
    cases h

theorem Coherent.gone_of_remove (h : Coherent b) {id : ExprId} {e : Expression}
    (he : b.expr id = .ok e) (hok : (b.remove id).1 = .ok ()) :
    (id.index < (b.remove id).2.ids.nextExpr ∧ (b.remove id).2.exprs.get? id = none) ∧
      ∀ c ∈ e.outputConnectors, c.index < (b.remove id).2.ids.nextConnector ∧
        (b.remove id).2.connectors.get? c = none := by
  have hget := expr_eq_ok_iff.mp he
  rcases h.toWired.remove_cases id with ⟨err, -, heq⟩ | ⟨e', b', he', -, heq, hremoved⟩
  · rw [heq] at hok
    cases hok
  · obtain rfl := Option.some.inj (hget.symm.trans he')
    rw [heq]
    refine ⟨⟨?_, ?_⟩, fun c hc => ⟨?_, ?_⟩⟩
    · rw [hremoved.ids]
      exact h.expr_lt id e hget
    · rw [hremoved.exprs, OrderedMap.get?_erase_self]
    · obtain ⟨slot, hfeeds⟩ := Feeds.of_mem hget hc
      obtain ⟨k, hk, -⟩ := (h.feeds_iff _ c).mp hfeeds
      rw [hremoved.ids]
      exact h.connector_lt c k hk
    · rw [hremoved.connectors, if_pos hc]

/-! ## Parameters and results by age -/

/-- One side of the graph lists the live expressions that stand there, older ones first, and their
ordinals ascend. -/
structure ListsByAge (b : Body) (side : Direction) : Prop where
  live : ∀ e, (∃ role, (e, role) ∈ b.boundary side) ↔
    ∃ id, b.expr id = .ok e ∧ e.node.op.side? = some side
  role : ∀ p ∈ b.boundary side, p.1.role = some p.2 ∧ p.2.side = side
  ordinals : (b.boundary side).Pairwise fun p q => p.2.ordinal < q.2.ordinal
  ages : (b.boundary side).Pairwise fun p q =>
    ∃ id id', p.1.id = some id ∧ q.1.id = some id' ∧ id.index < id'.index

theorem Coherent.listsByAge (h : Coherent b) (side : Direction) : ListsByAge b side where
  live e := by
    simp only [h.mem_boundary_iff, expr_eq_ok_iff]
    constructor
    · intro hx
      obtain ⟨role, id, he, hrole, hside⟩ := hx
      exact ⟨id, he, (h.role_iff he).mpr ⟨role, hrole, hside⟩⟩
    · intro hx
      obtain ⟨id, he, hside⟩ := hx
      obtain ⟨role, hrole, hside⟩ := (h.role_iff he).mp hside
      exact ⟨role, id, he, hrole, hside⟩
  role p hp := by
    obtain ⟨id, -, hrole, hside⟩ := h.mem_boundary_iff.mp hp
    exact ⟨hrole, hside⟩
  ordinals := h.pairwise_boundary side
  ages := by
    refine (h.pairwise_boundary side).imp_of_mem fun {p q} hp hq hlt => ?_
    obtain ⟨id, he, hrole, hside⟩ := h.mem_boundary_iff.mp hp
    obtain ⟨id', he', hrole', hside'⟩ := h.mem_boundary_iff.mp hq
    refine ⟨id, id', (h.installed id p.1 he).id, (h.installed id' q.1 he').id, ?_⟩
    -- A younger expression would have the greater ordinal, and the same one the same.
    by_contra hle
    rcases Nat.lt_or_eq_of_le (Nat.not_lt.mp hle) with hgt | heq
    · have := h.ordinal_mono id' q.1 q.2 id p.1 p.2 he' hrole' he hrole
        (hside'.trans hside.symm) hgt
      omega
    · obtain rfl : id' = id := by cases id; cases id'; congr
      obtain hsame := Option.some.inj (he.symm.trans he')
      rw [hsame, hrole'] at hrole
      rw [Option.some.inj hrole] at hlt
      exact absurd hlt (Int.lt_irrefl _)

/-! ## Over a whole history -/

section Histories

variable {provider : Option Provider} {actions : List Action} {i j : Nat}

/-- A call of a history is an insertion that goes through, and this is what it installs. -/
structure InsertsAt (provider : Option Provider) (actions : List Action) (i : Nat) (id : ExprId)
    (e : Expression) : Prop where
  call : ∃ action, actions[i]? = some action ∧
    (stateAt provider actions i).created? action = some id
  installed : (stateAt provider actions (i + 1)).expr id = .ok e

/-- A call of a history is a removal that goes through, and this is what it takes away. -/
structure RemovesAt (provider : Option Provider) (actions : List Action) (i : Nat) (id : ExprId)
    (e : Expression) : Prop where
  call : actions[i]? = some (.remove id)
  found : (stateAt provider actions i).expr id = .ok e
  removed : ((stateAt provider actions i).remove id).1 = .ok ()

theorem InsertsAt.inserted {id : ExprId} {e : Expression} (h : InsertsAt provider actions i id e) :
    id = (stateAt provider actions i).freshId ∧ ∃ position node inputs,
      Inserted (stateAt provider actions i) position node inputs e
        (stateAt provider actions (i + 1)) := by
  obtain ⟨⟨action, haction, hcreated⟩, hinstalled⟩ := h
  obtain ⟨rfl, position, node, inputs, e', hinserted⟩ := inserted_of_created hcreated
  rw [← stateAt_succ haction] at hinserted
  have hfound := expr_eq_ok_iff.mp hinstalled
  rw [hinserted.exprs, OrderedMap.get?_insert_self] at hfound
  obtain rfl := Option.some.inj hfound
  exact ⟨rfl, position, node, inputs, hinserted⟩

/-- Every insertion that goes through installs an expression, so what is said of insertions with
what they install leaves none out. -/
theorem exists_insertsAt {action : Action} {id : ExprId} (haction : actions[i]? = some action)
    (hcreated : (stateAt provider actions i).created? action = some id) :
    ∃ e, InsertsAt provider actions i id e := by
  obtain ⟨rfl, position, node, inputs, e, hinserted⟩ := inserted_of_created hcreated
  rw [← stateAt_succ haction] at hinserted
  have hinstalled : (stateAt provider actions (i + 1)).exprs.get?
      (stateAt provider actions i).freshId = some e := by
    rw [hinserted.exprs, OrderedMap.get?_insert_self]
  exact ⟨e, ⟨action, haction, hcreated⟩, expr_eq_ok_iff.mpr hinstalled⟩

/-- Of two insertions the later one gets greater numbers, and a greater ordinal on its side. -/
theorem InsertsAt.lt {id id' : ExprId} {e e' : Expression} (h : InsertsAt provider actions i id e)
    (h' : InsertsAt provider actions j id' e') (hij : i < j) :
    id.index < id'.index ∧
      (∀ c ∈ e.outputConnectors, ∀ c' ∈ e'.outputConnectors, c.index < c'.index) ∧
      ∀ role role', e.role = some role → e'.role = some role' → role.side = role'.side →
        role.ordinal < role'.ordinal := by
  obtain ⟨rfl, position, node, inputs, hi⟩ := h.inserted
  obtain ⟨rfl, position', node', inputs', hj⟩ := h'.inserted
  -- Between the two the supplies have only grown.
  have hgrown : Grown (stateAt provider actions (i + 1)) (stateAt provider actions j) :=
    grown_stateAt hij
  refine ⟨?_, fun c hc c' hc' => ?_, fun role role' hrole hrole' hside => ?_⟩
  · have hnext := hgrown.nextExpr
    rw [hi.ids] at hnext
    exact hnext
  · exact Nat.lt_of_lt_of_le (hi.connector_between hc).2
      (Nat.le_trans hgrown.nextConnector (hj.connector_between hc').1)
  · have hbefore := (hi.role.2 role hrole).2
    have hafter := (hj.role.2 role' hrole').1
    have hnext := hgrown.nextOrdinal role.side
    rw [hside] at hbefore hnext
    omega

theorem RemovesAt.gone {id : ExprId} {e : Expression} (h : RemovesAt provider actions i id e)
    (hij : i < j) :
    (stateAt provider actions j).expr id = .error (.unknownExpression id) ∧
      (stateAt provider actions j).position id = .error (.unknownExpression id) ∧
      ∀ c ∈ e.outputConnectors,
        (stateAt provider actions j).connector c = .error (.unknownConnector c) := by
  have hgrown : Grown (stateAt provider actions (i + 1)) (stateAt provider actions j) :=
    grown_stateAt hij
  obtain ⟨⟨hlt, hnone⟩, hconnectors⟩ :=
    (reachable_stateAt provider actions i).coherent.gone_of_remove h.found h.removed
  have hstep : stateAt provider actions (i + 1) = ((stateAt provider actions i).remove id).2 :=
    stateAt_succ h.call
  rw [← hstep] at hlt hnone hconnectors
  have hgone := hgrown.expr_gone id hlt hnone
  refine ⟨?_, ?_, fun c hc => ?_⟩
  · rw [Body.expr, hgone]
  · -- What is scheduled is in the table.
    have horder : id ∉ (stateAt provider actions j).order := by
      intro hmem
      obtain ⟨e', he'⟩ := ((reachable_stateAt provider actions j).coherent.mem_order id).mp hmem
      rw [hgone] at he'
      cases he'
    rw [position, List.idxOf?_eq_none_iff.mpr horder]
  · obtain ⟨hbelow, haway⟩ := hconnectors c hc
    rw [Body.connector, hgrown.connector_gone c hbelow haway]

/-- Over a history of calls, nothing that was handed out is handed out again. This goes for every
insertion that goes through, since each one installs an expression. -/
theorem never_reused (provider : Option Provider) (actions : List Action) :
    (∀ i action id, actions[i]? = some action →
      (stateAt provider actions i).created? action = some id →
        ∃ e, InsertsAt provider actions i id e) ∧
    (∀ i j id id' e e', i < j → InsertsAt provider actions i id e →
      InsertsAt provider actions j id' e' →
        id.index < id'.index ∧
        (∀ c ∈ e.outputConnectors, ∀ c' ∈ e'.outputConnectors, c.index < c'.index) ∧
        ∀ role role', e.role = some role → e'.role = some role' → role.side = role'.side →
          role.ordinal < role'.ordinal) ∧
    (∀ i id e, InsertsAt provider actions i id e →
      e.outputConnectors.Pairwise (fun c c' => c.index < c'.index) ∧
        e.role = (stateAt provider actions i).nextRole e.node) ∧
    (∀ i position node inputs err,
      ((stateAt provider actions i).insert position node inputs).1 = .error err → ∀ side,
        ((stateAt provider actions i).insert position node inputs).2.nextOrdinal side =
          (stateAt provider actions i).nextOrdinal side) ∧
    (∀ i j id e, i < j → RemovesAt provider actions i id e →
      (stateAt provider actions j).expr id = .error (.unknownExpression id) ∧
        (stateAt provider actions j).position id = .error (.unknownExpression id) ∧
        ∀ c ∈ e.outputConnectors,
          (stateAt provider actions j).connector c = .error (.unknownConnector c)) ∧
    ∀ b, Reachable b → ∀ side, ListsByAge b side := by
  refine ⟨fun i action id haction hcreated => exists_insertsAt haction hcreated,
    fun i j id id' e e' hij h h' => h.lt h' hij, fun i id e h => ?_,
    fun i position node inputs err h side => nextOrdinal_insert_error h side,
    fun i j id e hij h => h.gone hij, fun b h side => h.coherent.listsByAge side⟩
  obtain ⟨-, position, node, inputs, hinserted⟩ := h.inserted
  refine ⟨?_, hinserted.role.1⟩
  rw [hinserted.outputConnectors]
  exact pairwise_freshOutputs _ node

/-- A parameter that is removed, and another one after it. -/
def replaced : List Action :=
  [.push (.make "x" (.parameter .scalar)) [], .remove ⟨0⟩,
    .push (.make "y" (.parameter .scalar)) []]

/-- The new parameter has another number and another ordinal. -/
theorem never_reused_replaced : ∃ e e', InsertsAt none replaced 0 ⟨0⟩ e ∧
    RemovesAt none replaced 1 ⟨0⟩ e ∧ InsertsAt none replaced 2 ⟨1⟩ e' ∧
    e.role = some ⟨.input, 0⟩ ∧ e'.role = some ⟨.input, 1⟩ ∧
    (stateAt none replaced 3).expr ⟨0⟩ = .error (.unknownExpression ⟨0⟩) := by
  obtain ⟨e, he⟩ : ∃ e, (stateAt none replaced 1).expr ⟨0⟩ = .ok e := ⟨_, rfl⟩
  obtain ⟨e', he'⟩ : ∃ e', (stateAt none replaced 3).expr ⟨1⟩ = .ok e' := ⟨_, rfl⟩
  have hfirst : InsertsAt none replaced 0 ⟨0⟩ e := ⟨⟨_, rfl, by decide +kernel⟩, he⟩
  have hremoved : RemovesAt none replaced 1 ⟨0⟩ e := ⟨rfl, he, by decide +kernel⟩
  have hsecond : InsertsAt none replaced 2 ⟨1⟩ e' := ⟨⟨_, rfl, by decide +kernel⟩, he'⟩
  have hrole : ((stateAt none replaced 1).expr ⟨0⟩).map Expression.role =
      .ok (some ⟨.input, 0⟩) := rfl
  have hrole' : ((stateAt none replaced 3).expr ⟨1⟩).map Expression.role =
      .ok (some ⟨.input, 1⟩) := rfl
  rw [he] at hrole
  rw [he'] at hrole'
  obtain ⟨-, -, -, -, hgone, -⟩ := never_reused none replaced
  exact ⟨e, e', hfirst, hremoved, hsecond, Except.ok.inj hrole, Except.ok.inj hrole',
    (hgone 1 3 ⟨0⟩ e (by decide) hremoved).1⟩

end Histories

end TensorIR.Body
