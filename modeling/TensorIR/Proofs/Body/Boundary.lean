import Mathlib.Data.List.Sort
import TensorIR.Proofs.Body.Retouching

/-!
# Parameters and results by ordinal

The parameters of a coherent body, and likewise the results, have ordinals that are all different,
so sorting them by ordinal has only one outcome. `ByOrdinal` says what it is, and passes do not
change it. In a body that is given, `boundary_eq_insertionSort` computes it.
-/

set_option autoImplicit false

namespace TensorIR.Body

variable {b b' : Body} {side : Direction}

/-- The list holds the live expressions on one side of the graph, by ordinal. -/
structure ByOrdinal (b : Body) (side : Direction) (ids : List ExprId) : Prop where
  mem_iff : ∀ id, id ∈ ids ↔ ∃ e, b.expr id = .ok e ∧ e.node.op.side? = some side
  ascending : ids.Pairwise fun p q => ∃ e f r s, b.expr p = .ok e ∧ b.expr q = .ok f ∧
    e.role = some ⟨side, r⟩ ∧ f.role = some ⟨side, s⟩ ∧ r < s

/-- The expressions on one side of the graph, as the boundary lists them. -/
def boundaryIds (b : Body) (side : Direction) : List ExprId :=
  (b.boundary side).filterMap fun p => p.1.id

theorem Wired.mem_scheduled_iff (h : Wired b) {e : Expression} :
    e ∈ b.scheduled ↔ ∃ id, b.exprs.get? id = some e := by
  rw [scheduled, List.mem_filterMap]
  constructor
  · intro hx
    obtain ⟨id, -, he⟩ := hx
    exact ⟨id, he⟩
  · intro hx
    obtain ⟨id, he⟩ := hx
    exact ⟨id, (h.mem_order id).mpr ⟨e, he⟩, he⟩

theorem Wired.mem_boundary_iff (h : Wired b) {p : Expression × BoundaryRole} :
    p ∈ b.boundary side ↔
      ∃ id, b.exprs.get? id = some p.1 ∧ p.1.role = some p.2 ∧ p.2.side = side := by
  obtain ⟨e, role⟩ := p
  simp only [boundary, List.mem_mergeSort, List.mem_filter, List.mem_filterMap,
    h.mem_scheduled_iff, Option.map_eq_some_iff, Prod.mk.injEq, decide_eq_true_eq]
  constructor
  · intro hx
    obtain ⟨⟨_, ⟨id, he⟩, _, hrole, rfl, rfl⟩, hside⟩ := hx
    exact ⟨id, he, hrole, hside⟩
  · intro hx
    obtain ⟨id, he, hrole, hside⟩ := hx
    exact ⟨⟨e, ⟨id, he⟩, role, hrole, rfl, rfl⟩, hside⟩

/-- Different expressions on one side have different ordinals. -/
theorem Numbered.ordinal_ne (h : Numbered b) {id id' : ExprId} {e e' : Expression}
    {role role' : BoundaryRole} (he : b.exprs.get? id = some e) (hrole : e.role = some role)
    (he' : b.exprs.get? id' = some e') (hrole' : e'.role = some role')
    (hside : role.side = role'.side) (hne : id ≠ id') : role.ordinal ≠ role'.ordinal := by
  rcases Nat.lt_trichotomy id.index id'.index with hlt | heq | hgt
  · have := h.ordinal_mono id e role id' e' role' he hrole he' hrole' hside hlt
    omega
  · exact absurd (by cases id; cases id'; congr) hne
  · have := h.ordinal_mono id' e' role' id e role he' hrole' he hrole hside.symm hgt
    omega

theorem Coherent.pairwise_id_scheduled (h : Coherent b) :
    b.scheduled.Pairwise fun e e' => e.id ≠ e'.id := by
  refine List.Pairwise.filterMap _ (fun id id' hne e he e' he' => ?_) h.nodup
  rw [(h.installed id e he).id, (h.installed id' e' he').id]
  exact fun heq => hne (Option.some.inj heq)

theorem Coherent.pairwise_boundary (h : Coherent b) (side : Direction) :
    (b.boundary side).Pairwise fun p q => p.2.ordinal < q.2.ordinal := by
  have hsorted : (b.boundary side).Pairwise fun p q => decide (p.2.ordinal ≤ q.2.ordinal) :=
    List.pairwise_mergeSort (fun p q r => by simp only [decide_eq_true_eq]; omega)
      (fun p q => by simp only [Bool.or_eq_true, decide_eq_true_eq]; omega) _
  -- Sorting cannot be strict by itself; it is because no two entries are the same expression.
  have hids : (b.boundary side).Pairwise fun p q => p.1.id ≠ q.1.id := by
    refine ((List.mergeSort_perm _ _).pairwise_iff fun hne => hne.symm).mpr
      (List.Pairwise.filter _ ?_)
    refine h.pairwise_id_scheduled.filterMap _ fun e e' hne p hp q hq => ?_
    obtain ⟨role, -, rfl⟩ := Option.map_eq_some_iff.mp hp
    obtain ⟨role', -, rfl⟩ := Option.map_eq_some_iff.mp hq
    exact hne
  refine List.Pairwise.imp_of_mem (fun {p q} hp hq hpq => ?_) (hsorted.and hids)
  obtain ⟨id, he, hrole, hside⟩ := h.mem_boundary_iff.mp hp
  obtain ⟨id', he', hrole', hside'⟩ := h.mem_boundary_iff.mp hq
  have hne : id ≠ id' := fun heq => hpq.2 <| by
    rw [(h.installed id p.1 he).id, (h.installed id' q.1 he').id, heq]
  have hle := of_decide_eq_true hpq.1
  have := h.ordinal_ne he hrole he' hrole' (hside.trans hside'.symm) hne
  omega

/-- Who is on which side can be told from the node. -/
theorem Numbered.role_iff (h : Numbered b) {id : ExprId} {e : Expression}
    (he : b.exprs.get? id = some e) :
    e.node.op.side? = some side ↔ ∃ role, e.role = some role ∧ role.side = side := by
  rw [← (h.installed id e he).side, Option.map_eq_some_iff]

theorem Coherent.byOrdinal_boundaryIds (h : Coherent b) (side : Direction) :
    b.ByOrdinal side (b.boundaryIds side) where
  mem_iff id := by
    simp only [boundaryIds, List.mem_filterMap, expr_eq_ok_iff]
    constructor
    · intro hx
      obtain ⟨p, hp, hid⟩ := hx
      obtain ⟨id', he, hrole, hside⟩ := h.mem_boundary_iff.mp hp
      obtain rfl : id' = id := by
        rw [(h.installed id' p.1 he).id] at hid
        exact Option.some.inj hid
      exact ⟨p.1, he, (h.role_iff he).mpr ⟨p.2, hrole, hside⟩⟩
    · intro hx
      obtain ⟨e, he, hnode⟩ := hx
      obtain ⟨role, hrole, hside⟩ := (h.role_iff he).mp hnode
      exact ⟨(e, role), h.mem_boundary_iff.mpr ⟨id, he, hrole, hside⟩, (h.installed id e he).id⟩
  ascending := by
    refine List.pairwise_filterMap.mpr
      ((h.pairwise_boundary side).imp_of_mem fun {p q} hp hq hlt id hid id' hid' => ?_)
    obtain ⟨i, he, hrole, hside⟩ := h.mem_boundary_iff.mp hp
    obtain ⟨i', he', hrole', hside'⟩ := h.mem_boundary_iff.mp hq
    obtain rfl : i = id := by
      rw [(h.installed i p.1 he).id] at hid
      exact Option.some.inj hid
    obtain rfl : i' = id' := by
      rw [(h.installed i' q.1 he').id] at hid'
      exact Option.some.inj hid'
    exact ⟨p.1, q.1, p.2.ordinal, q.2.ordinal, expr_eq_ok_iff.mpr he, expr_eq_ok_iff.mpr he',
      by rw [hrole, ← hside], by rw [hrole', ← hside'], hlt⟩

theorem ByOrdinal.retouched {ids : List ExprId} (h : b'.ByOrdinal side ids)
    (hr : Retouched b b') : b.ByOrdinal side ids where
  mem_iff id := by
    rw [h.mem_iff]
    simp only [expr_eq_ok_iff]
    constructor
    · intro hx
      obtain ⟨e', he', hside⟩ := hx
      obtain ⟨e, he, hee'⟩ := hr.before he'
      exact ⟨e, he, hee'.node ▸ hside⟩
    · intro hx
      obtain ⟨e, he, hside⟩ := hx
      obtain ⟨e', he', hee'⟩ := hr.after he
      exact ⟨e', he', hee'.node ▸ hside⟩
  ascending := by
    refine h.ascending.imp fun {p q} => ?_
    intro hx
    obtain ⟨e', f', r, s, he', hf', hrole, hrole', hlt⟩ := hx
    obtain ⟨e, he, hee'⟩ := hr.before (expr_eq_ok_iff.mp he')
    obtain ⟨f, hf, hff'⟩ := hr.before (expr_eq_ok_iff.mp hf')
    exact ⟨e, f, r, s, expr_eq_ok_iff.mpr he, expr_eq_ok_iff.mpr hf, hee'.role ▸ hrole,
      hff'.role ▸ hrole', hlt⟩

theorem ByOrdinal.nodup {ids : List ExprId} (h : b.ByOrdinal side ids) : ids.Nodup := by
  refine h.ascending.imp fun {p q} => ?_
  rintro ⟨e, f, r, s, he, hf, hrole, hrole', hlt⟩ rfl
  obtain rfl := Except.ok.inj (he.symm.trans hf)
  have := Option.some.inj (hrole.symm.trans hrole')
  simp only [BoundaryRole.mk.injEq, true_and] at this
  omega

theorem ByOrdinal.unique {side : Direction} {ids ids' : List ExprId} (h : b.ByOrdinal side ids)
    (h' : b.ByOrdinal side ids') : ids = ids' := by
  refine List.Perm.eq_of_pairwise (fun p q _ _ hpq hqp => ?_) h.ascending h'.ascending
    ((List.perm_ext_iff_of_nodup h.nodup h'.nodup).mpr fun id =>
      (h.mem_iff id).trans (h'.mem_iff id).symm)
  obtain ⟨e, f, r, t, he, hf, hr, ht, hlt⟩ := hpq
  obtain ⟨f', e', t', r', hf', he', ht', hr', hgt⟩ := hqp
  obtain rfl := Except.ok.inj (he.symm.trans he')
  obtain rfl := Except.ok.inj (hf.symm.trans hf')
  cases hr.symm.trans hr'
  cases ht.symm.trans ht'
  omega

/-! ## Evaluating a boundary -/

theorem orderedInsert_between {α : Type} (key : α → Int) {a : α} {l₁ l₂ : List α}
    (hbefore : ∀ x ∈ l₁, key x < key a) (hafter : ∀ x ∈ l₂, key a ≤ key x) :
    (l₁ ++ l₂).orderedInsert (key · ≤ key ·) a = l₁ ++ a :: l₂ := by
  induction l₁ with
  | nil =>
    cases l₂ with
    | nil => rfl
    | cons x l₂ => exact List.orderedInsert_cons_of_le _ l₂ (hafter x List.mem_cons_self)
  | cons x l₁ ih =>
    have hx : ¬ key a ≤ key x := Int.not_le.mpr (hbefore x List.mem_cons_self)
    rw [List.cons_append, List.orderedInsert_cons, if_neg hx,
      ih fun y hy => hbefore y (List.mem_cons_of_mem x hy), List.cons_append]

/-- Both sorts keep what has the same key in order. -/
theorem mergeSort_eq_insertionSort {α : Type} (key : α → Int) (l : List α) :
    l.mergeSort (fun x y => key x ≤ key y) = l.insertionSort (key · ≤ key ·) := by
  have htrans : ∀ x y z : α, decide (key x ≤ key y) → decide (key y ≤ key z) →
      decide (key x ≤ key z) := by
    intro x y z
    simp only [decide_eq_true_eq]
    exact Int.le_trans
  have htotal : ∀ x y : α, decide (key x ≤ key y) || decide (key y ≤ key x) := by
    intro x y
    simp only [Bool.or_eq_true, decide_eq_true_eq]
    exact Int.le_total _ _
  induction l with
  | nil => simp
  | cons a l ih =>
    obtain ⟨l₁, l₂, hsorted, htail, hbefore⟩ := List.mergeSort_cons htrans htotal a l
    have hafter : ∀ x ∈ l₂, key a ≤ key x := by
      intro x hx
      have hpairs := List.pairwise_mergeSort htrans htotal (a :: l)
      rw [hsorted] at hpairs
      exact of_decide_eq_true ((List.pairwise_cons.mp (List.pairwise_append.mp hpairs).2.1).1 x hx)
    rw [List.insertionSort_cons, ← ih, htail, hsorted,
      orderedInsert_between key (fun x hx => by simpa using hbefore x hx) hafter]

/-- The boundary by a sort that goes by the structure of the list, and so can be evaluated. -/
theorem boundary_eq_insertionSort (b : Body) (side : Direction) : b.boundary side =
    ((b.scheduled.filterMap fun e => e.role.map fun role => (e, role)).filter
      fun p => p.2.side = side).insertionSort fun p q => p.2.ordinal ≤ q.2.ordinal :=
  mergeSort_eq_insertionSort (fun p : Expression × BoundaryRole => p.2.ordinal) _

end TensorIR.Body
