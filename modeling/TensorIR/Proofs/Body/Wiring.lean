import TensorIR.Body.Edit
import TensorIR.Proofs.Expression.Making

/-!
# The structure of a body

A body keeps the same facts in several places: an expression names the connectors at its ports, and
a connector names the ports at its ends; the schedule lists the expressions, and the table holds
them. `Wired` says that these agree, and that an expression only reads what ran before it.

Reading and feeding are stated as relations between slots and connectors, taken from the
expressions (`Reads`, `Feeds`). Each of them is then the other side of what the connectors say, in
both directions at once: that the connectors at the ports are live, that readers are listed, that
nobody else is listed, that a connector is fed by its source and by nothing else are all cases of
`reads_iff` and `feeds_iff`.

What `Wired` says is not kept by insertions alone, because a new number might not be new. `Coherent`
adds what is known about numbers and ordinals.
-/

set_option autoImplicit false

namespace TensorIR.Body

variable {b : Body}

/-! ## Reading, feeding and running before -/

/-- The slot is an operand that reads the connector. -/
def Reads (b : Body) (slot : Slot) (c : ConnectorId) : Prop :=
  ∃ e, b.exprs.get? slot.expr = some e ∧ e.inputConnectors[slot.index]? = some c

/-- The slot is an output that feeds the connector. -/
def Feeds (b : Body) (slot : Slot) (c : ConnectorId) : Prop :=
  ∃ e, b.exprs.get? slot.expr = some e ∧ e.outputConnectors[slot.index]? = some c

/-- The first expression is scheduled before the second. -/
def RunsBefore (b : Body) (p q : ExprId) : Prop := [p, q].Sublist b.order

theorem Reads.of_mem {id : ExprId} {e : Expression} {c : ConnectorId}
    (he : b.exprs.get? id = some e) (hc : c ∈ e.inputConnectors) : ∃ i, b.Reads ⟨id, i⟩ c := by
  obtain ⟨i, hi⟩ := List.mem_iff_getElem?.mp hc
  exact ⟨i, e, he, hi⟩

theorem Feeds.of_mem {id : ExprId} {e : Expression} {c : ConnectorId}
    (he : b.exprs.get? id = some e) (hc : c ∈ e.outputConnectors) : ∃ j, b.Feeds ⟨id, j⟩ c := by
  obtain ⟨j, hj⟩ := List.mem_iff_getElem?.mp hc
  exact ⟨j, e, he, hj⟩

theorem reads_iff_connector {slot : Slot} {c : ConnectorId} :
    b.expr slot.expr >>= (·.connector .input slot.index) = .ok c ↔ b.Reads slot c := by
  unfold Reads
  cases he : b.expr slot.expr with
  | error err => simp [bind, Except.bind, get?_of_expr_error he]
  | ok e =>
    simp [bind, Except.bind, expr_eq_ok_iff.mp he, Expression.connector_input_eq_ok_iff]

theorem reads_unique {slot : Slot} {c c' : ConnectorId} (h : b.Reads slot c)
    (h' : b.Reads slot c') : c = c' := by
  obtain ⟨e, he, hc⟩ := h
  obtain ⟨e', he', hc'⟩ := h'
  obtain rfl := Option.some.inj (he.symm.trans he')
  exact Option.some.inj (hc.symm.trans hc')

/-! ## The invariant -/

/-- Expressions, connectors and the schedule agree. -/
structure Wired (b : Body) : Prop where
  nodup : b.order.Nodup
  mem_order : ∀ id, id ∈ b.order ↔ ∃ e, b.exprs.get? id = some e
  reads_iff : ∀ slot c,
    b.Reads slot c ↔ ∃ k, b.connectors.get? c = some k ∧ k.reads slot = true
  feeds_iff : ∀ slot c, b.Feeds slot c ↔ ∃ k, b.connectors.get? c = some k ∧ k.source = slot
  ordered : ∀ slot c k, b.Reads slot c → b.connectors.get? c = some k →
    b.RunsBefore k.source.expr slot.expr

/-- The numbers in use were handed out, and ordinals grow with the numbers of the expressions. -/
structure Numbered (b : Body) : Prop where
  installed : ∀ id e, b.exprs.get? id = some e → e.Installed id b.provider
  expr_lt : ∀ id e, b.exprs.get? id = some e → id.index < b.ids.nextExpr
  connector_lt : ∀ c k, b.connectors.get? c = some k → c.index < b.ids.nextConnector
  ordinal_lt : ∀ id e role, b.exprs.get? id = some e → e.role = some role →
    role.ordinal < b.nextOrdinal role.side
  ordinal_mono : ∀ id e role id' e' role', b.exprs.get? id = some e → e.role = some role →
    b.exprs.get? id' = some e' → e'.role = some role' → role.side = role'.side →
    id.index < id'.index → role.ordinal < role'.ordinal

/-- The structure is sound, and numbers are given out so that it stays sound. -/
structure Coherent (b : Body) : Prop extends Wired b, Numbered b

/-! ## Consequences -/

theorem Wired.live_of_reads (h : Wired b) {slot : Slot} {c : ConnectorId} (hr : b.Reads slot c) :
    ∃ k, b.connectors.get? c = some k :=
  ((h.reads_iff slot c).mp hr).imp fun _ hk => hk.1

theorem Wired.reads (h : Wired b) {slot : Slot} {c : ConnectorId} {k : Connector}
    (hk : b.connectors.get? c = some k) (hr : b.Reads slot c) : k.reads slot = true := by
  obtain ⟨k', hk', hreads⟩ := (h.reads_iff slot c).mp hr
  rwa [Option.some.inj (hk.symm.trans hk')]

theorem Wired.source (h : Wired b) {slot : Slot} {c : ConnectorId} {k : Connector}
    (hk : b.connectors.get? c = some k) (hf : b.Feeds slot c) : k.source = slot := by
  obtain ⟨k', hk', hsource⟩ := (h.feeds_iff slot c).mp hf
  rwa [Option.some.inj (hk.symm.trans hk')]

theorem Wired.feeds_source (h : Wired b) {c : ConnectorId} {k : Connector}
    (hk : b.connectors.get? c = some k) : b.Feeds k.source c :=
  (h.feeds_iff k.source c).mpr ⟨k, hk, rfl⟩

/-! ## Positions in the schedule -/

theorem idxOf?_eq_some_iff_of_nodup {order : List ExprId} (hnodup : order.Nodup) {id : ExprId}
    {i : Nat} : order.idxOf? id = some i ↔ order[i]? = some id := by
  induction order generalizing i with
  | nil => simp
  | cons first order ih =>
    obtain ⟨hfirst, hnodup⟩ := List.nodup_cons.mp hnodup
    rw [List.idxOf?_cons]
    by_cases h : first = id
    · subst h
      cases i with
      | zero => simp
      | succ i =>
        have : order[i]? ≠ some first := fun hi => hfirst (List.mem_of_getElem? hi)
        simp [this]
    · cases i with
      | zero => simp [h]
      | succ i => simp [h, ih hnodup]

theorem pair_sublist_iff {order : List ExprId} {p q : ExprId} :
    [p, q].Sublist order ↔ ∃ i j : Nat, i < j ∧ order[i]? = some p ∧ order[j]? = some q := by
  constructor
  · intro h
    induction order with
    | nil => simp at h
    | cons first order ih =>
      cases h with
      | cons _ h =>
        obtain ⟨i, j, hij, hi, hj⟩ := ih h
        exact ⟨i + 1, j + 1, Nat.succ_lt_succ hij, by simpa using hi, by simpa using hj⟩
      | cons_cons _ h =>
        obtain ⟨j, hj⟩ := List.mem_iff_getElem?.mp (List.singleton_sublist.mp h)
        exact ⟨0, j + 1, Nat.succ_pos j, rfl, by simpa using hj⟩
  · intro hx
    obtain ⟨i, j, hij, hi, hj⟩ := hx
    -- The first lies before the place of the second, the second at it or after.
    have hp : p ∈ order.take j := List.mem_of_getElem? (by rw [List.getElem?_take_of_lt hij, hi])
    have hq : q ∈ order.drop j :=
      List.mem_of_getElem? (i := 0) (by rw [List.getElem?_drop, Nat.add_zero, hj])
    rw [← List.take_append_drop j order]
    exact (List.singleton_sublist.mpr hp).append (List.singleton_sublist.mpr hq)

/-- In a schedule without repetitions, running before is a matter of positions. -/
theorem runsBefore_iff (hnodup : b.order.Nodup) {p q : ExprId} :
    b.RunsBefore p q ↔ ∃ i j, b.position p = .ok i ∧ b.position q = .ok j ∧ i < j := by
  simp only [RunsBefore, pair_sublist_iff, position_eq_ok_iff, idxOf?_eq_some_iff_of_nodup hnodup]
  constructor
  · intro hx
    obtain ⟨i, j, hij, hi, hj⟩ := hx
    exact ⟨i, j, hi, hj, hij⟩
  · intro hx
    obtain ⟨i, j, hi, hj, hij⟩ := hx
    exact ⟨i, j, hij, hi, hj⟩

/-! ## The beginning -/

theorem coherent_empty (provider : Option Provider) : Coherent (empty provider) where
  nodup := List.nodup_nil
  mem_order id := by simp [empty]
  reads_iff slot c := by simp [Reads, empty]
  feeds_iff slot c := by simp [Feeds, empty]
  ordered slot c k hr := by simp [Reads, empty] at hr
  installed id e he := by simp [empty] at he
  expr_lt id e he := by simp [empty] at he
  connector_lt c k hk := by simp [empty] at hk
  ordinal_lt id e role he := by simp [empty] at he
  ordinal_mono id e role id' e' role' he := by simp [empty] at he

end TensorIR.Body
