import TensorIR.Body.Edit

/-!
# What writing to the tables does

The edits of a body write to its two tables of expressions and connectors, one entry at a time. Here
each kind of write is described once by the look-ups it leaves behind, so that nothing later has to
look at a table as a list.

`tellReads_ok` is the one statement that needs an argument. It covers the registration and the
withdrawal of all operands of an expression at once: whatever is told to a connector must not depend
on what the same connector was told about the other operands, since one connector may be read by
several of them.
-/

set_option autoImplicit false

namespace TensorIR

namespace Connector

/-- The connector with more readers. -/
def addReaders (c : Connector) (slots : List Slot) : Connector := slots.foldl addReader c

/-- The connector without some of its readers. -/
def dropReaders (c : Connector) (slots : List Slot) : Connector := slots.foldl dropReader c

@[simp] theorem source_addReaders (c : Connector) (slots : List Slot) :
    (c.addReaders slots).source = c.source := by
  induction slots generalizing c with
  | nil => rfl
  | cons slot slots ih => exact ih (c.addReader slot)

@[simp] theorem source_dropReaders (c : Connector) (slots : List Slot) :
    (c.dropReaders slots).source = c.source := by
  induction slots generalizing c with
  | nil => rfl
  | cons slot slots ih => exact ih (c.dropReader slot)

theorem reads_addReaders {c : Connector} {slots : List Slot} {slot : Slot} :
    (c.addReaders slots).reads slot = true ↔ slot ∈ slots ∨ c.reads slot = true := by
  induction slots generalizing c with
  | nil => simp [addReaders]
  | cons first slots ih =>
    have step : (c.addReaders (first :: slots)).reads slot = true ↔
        slot ∈ slots ∨ (c.addReader first).reads slot = true := ih
    rw [step, reads_addReader, List.mem_cons, or_left_comm, or_assoc]

theorem reads_dropReaders {c : Connector} {slots : List Slot} {slot : Slot} :
    (c.dropReaders slots).reads slot = true ↔ slot ∉ slots ∧ c.reads slot = true := by
  induction slots generalizing c with
  | nil => simp [dropReaders]
  | cons first slots ih =>
    have step : (c.dropReaders (first :: slots)).reads slot = true ↔
        slot ∉ slots ∧ (c.dropReader first).reads slot = true := ih
    rw [step, reads_dropReader, List.mem_cons, not_or, and_left_comm, and_assoc]

end Connector

namespace Body

variable {b : Body}

/-- Bodies are determined by what is looked up in them and by what is counted. -/
theorem ext_get? {b' : Body} (hexprs : ∀ id, b.exprs.get? id = b'.exprs.get? id)
    (hconnectors : ∀ c, b.connectors.get? c = b'.connectors.get? c) (horder : b.order = b'.order)
    (hids : b.ids = b'.ids) (hinput : b.nextInput = b'.nextInput)
    (houtput : b.nextOutput = b'.nextOutput) (hprovider : b.provider = b'.provider) : b = b' := by
  have hexprs' : b.exprs = b'.exprs := OrderedMap.ext_get? hexprs
  have hconnectors' : b.connectors = b'.connectors := OrderedMap.ext_get? hconnectors
  cases b
  cases b'
  simp_all

/-! ## One entry -/

theorem editExpr_ok {id : ExprId} {f : Expression → Except IrError Expression} {e e' : Expression}
    (he : b.exprs.get? id = some e) (hf : f e = .ok e') :
    b.editExpr id f = (.ok (), { b with exprs := b.exprs.insert id e' }) := by
  have : b.expr id >>= f = .ok e' := by rw [expr_eq_ok_iff.mpr he]; exact hf
  rw [editExpr, this]

theorem editConnector_ok {id : ConnectorId} {f : Connector → Except IrError Connector}
    {c c' : Connector} (hc : b.connectors.get? id = some c) (hf : f c = .ok c') :
    b.editConnector id f = (.ok (), { b with connectors := b.connectors.insert id c' }) := by
  have : b.connector id >>= f = .ok c' := by rw [connector_eq_ok_iff.mpr hc]; exact hf
  rw [editConnector, this]

/-- An edit of an expression either leaves no trace or replaces it. -/
theorem editExpr_cases (b : Body) (id : ExprId) (f : Expression → Except IrError Expression) :
    (∃ err, b.editExpr id f = (.error err, b)) ∨
      ∃ e e', b.exprs.get? id = some e ∧ f e = .ok e' ∧
        b.editExpr id f = (.ok (), { b with exprs := b.exprs.insert id e' }) := by
  cases he : b.expr id with
  | error err => exact .inl ⟨err, by rw [editExpr, he]; rfl⟩
  | ok e =>
    cases hf : f e with
    | error err => exact .inl ⟨err, by rw [editExpr, he]; simp [bind, Except.bind, hf]⟩
    | ok e' => exact .inr ⟨e, e', expr_eq_ok_iff.mp he, hf, editExpr_ok (expr_eq_ok_iff.mp he) hf⟩

theorem onExpr_cases {α : Type} (b : Body) (id : ExprId)
    (f : Expression → Except IrError α × Expression) :
    (∃ err, b.onExpr id f = (.error err, b)) ∨
      ∃ e, b.exprs.get? id = some e ∧
        b.onExpr id f = ((f e).1, { b with exprs := b.exprs.insert id (f e).2 }) := by
  cases he : b.expr id with
  | error err => exact .inl ⟨err, by rw [onExpr, he]⟩
  | ok e => exact .inr ⟨e, expr_eq_ok_iff.mp he, by rw [onExpr, he]⟩

/-! ## The reads of an expression -/

/-- The operands of an expression that read a connector, counted from the given one on. -/
def operandsOn (id : ExprId) : Nat → List ConnectorId → ConnectorId → List Slot
  | _, [], _ => []
  | i, c :: cs, target =>
    if c = target then ⟨id, i⟩ :: operandsOn id (i + 1) cs target
    else operandsOn id (i + 1) cs target

theorem mem_operandsOn {id : ExprId} {i : Nat} {cs : List ConnectorId} {target : ConnectorId}
    {slot : Slot} :
    slot ∈ operandsOn id i cs target ↔ ∃ k, cs[k]? = some target ∧ slot = ⟨id, i + k⟩ := by
  induction cs generalizing i with
  | nil => simp [operandsOn]
  | cons c cs ih =>
    -- The first operand has offset zero, the others one more than they have in the rest.
    have split : (∃ k, (c :: cs)[k]? = some target ∧ slot = ⟨id, i + k⟩) ↔
        (c = target ∧ slot = ⟨id, i⟩) ∨ ∃ k, cs[k]? = some target ∧ slot = ⟨id, i + 1 + k⟩ := by
      constructor
      · intro hx
        obtain ⟨k, hk, rfl⟩ := hx
        cases k with
        | zero => exact .inl ⟨by simpa using hk, rfl⟩
        | succ k => exact .inr ⟨k, by simpa using hk, by rw [Nat.add_right_comm]; rfl⟩
      · intro hx
        rcases hx with ⟨rfl, rfl⟩ | ⟨k, hk, rfl⟩
        · exact ⟨0, by simp, rfl⟩
        · exact ⟨k + 1, by simpa using hk, by rw [Nat.add_right_comm]; rfl⟩
    rw [split, ← ih, operandsOn]
    by_cases h : c = target <;> simp [h]

theorem mem_operandsOn_zero {id : ExprId} {cs : List ConnectorId} {target : ConnectorId}
    {slot : Slot} :
    slot ∈ operandsOn id 0 cs target ↔ slot.expr = id ∧ cs[slot.index]? = some target := by
  obtain ⟨expr, index⟩ := slot
  simp only [mem_operandsOn, Nat.zero_add, Slot.mk.injEq]
  constructor
  · intro hx
    obtain ⟨k, hk, rfl, rfl⟩ := hx
    exact ⟨rfl, hk⟩
  · intro hx
    obtain ⟨rfl, hk⟩ := hx
    exact ⟨index, hk, rfl, rfl⟩

/-- Telling the connectors about all operands succeeds if each connector agrees (`fits`) to the
operand that reads it, and agrees no less after it was told about another operand. Each connector is
then changed once for each operand that reads it, and nothing else is changed. -/
theorem tellReads_ok {tell : Port → Connector → Except IrError Connector}
    {change : Connector → Slot → Connector} (fits : Slot → Connector → Prop)
    (htell : ∀ slot c, fits slot c → tell slot.input c = .ok (change c slot))
    (hkeep : ∀ slot other c, slot ≠ other → fits slot c → fits slot (change c other))
    (id : ExprId) (cs : List ConnectorId) (i : Nat) (b : Body)
    (hfits : ∀ k c, cs[k]? = some c → ∃ x, b.connectors.get? c = some x ∧ fits ⟨id, i + k⟩ x) :
    ∃ table, tellReads tell id b i cs = (.ok (), { b with connectors := table }) ∧
      ∀ c, table.get? c =
        (b.connectors.get? c).map fun x => (operandsOn id i cs c).foldl change x := by
  -- Along the operands, with the body they leave: the hypothesis on the rest holds again after the
  -- first connector was changed, because what fits the later operands is kept.
  induction cs generalizing i b with
  | nil => exact ⟨b.connectors, rfl, fun c => by simp [operandsOn]⟩
  | cons first cs ih =>
    obtain ⟨x, hx, hfit⟩ := hfits 0 first (by simp)
    have hstep : b.editConnector first (tell ⟨id, .input, i⟩) =
        (.ok (), { b with connectors := b.connectors.insert first (change x ⟨id, i⟩) }) :=
      editConnector_ok hx (htell ⟨id, i⟩ x hfit)
    obtain ⟨table, htable, hget⟩ := ih (i + 1)
      { b with connectors := b.connectors.insert first (change x ⟨id, i⟩) } fun k c hk => by
        obtain ⟨y, hy, hfit'⟩ := hfits (k + 1) c (by simpa using hk)
        rw [OrderedMap.get?_insert]
        have hindex : i + (k + 1) = i + 1 + k := by omega
        by_cases h : c = first
        · subst h
          obtain rfl : x = y := Option.some.inj (hx.symm.trans hy)
          refine ⟨_, if_pos rfl, hkeep _ _ _ ?_ (hindex ▸ hfit')⟩
          simp only [ne_eq, Slot.mk.injEq, not_and]
          omega
        · exact ⟨y, by rw [if_neg h, hy], hindex ▸ hfit'⟩
    refine ⟨table, by rw [tellReads, hstep]; exact htable, fun c => ?_⟩
    rw [hget, OrderedMap.get?_insert, operandsOn]
    by_cases h : c = first
    · subst h
      simp [hx]
    · rw [if_neg h, if_neg (Ne.symm h)]

/-- Live connectors all take a new reader. -/
theorem tellReads_admitReader (id : ExprId) (cs : List ConnectorId) (b : Body)
    (hlive : ∀ c ∈ cs, ∃ x, b.connectors.get? c = some x) :
    ∃ table, tellReads admitReader id b 0 cs = (.ok (), { b with connectors := table }) ∧
      ∀ c, table.get? c = (b.connectors.get? c).map (·.addReaders (operandsOn id 0 cs c)) :=
  tellReads_ok (fun _ _ => True) (fun _ _ _ => rfl) (fun _ _ _ _ _ => trivial) id cs 0 b
    fun _ c hk => (hlive c (List.mem_of_getElem? hk)).imp fun _ hx => ⟨hx, trivial⟩

/-- Connectors that list the operands all let them go. -/
theorem tellReads_unregister (id : ExprId) (cs : List ConnectorId) (b : Body)
    (hlisted : ∀ k c, cs[k]? = some c →
      ∃ x, b.connectors.get? c = some x ∧ x.reads ⟨id, k⟩ = true) :
    ∃ table, tellReads (fun port c => c.unregister port) id b 0 cs =
        (.ok (), { b with connectors := table }) ∧
      ∀ c, table.get? c = (b.connectors.get? c).map (·.dropReaders (operandsOn id 0 cs c)) :=
  tellReads_ok (fun slot c => c.reads slot = true)
    (fun slot c h => Connector.unregister_input c slot h)
    (fun _ _ _ hne h => Connector.reads_dropReader.mpr ⟨hne, h⟩) id cs 0 b
    fun k c hk => by simpa using hlisted k c hk

/-! ## The outputs of an expression -/

/-- The positions start at some number, as they do in the tail of a list. -/
theorem get?_addSources_from (id : ExprId) {outputs : List ConnectorId} (hnodup : outputs.Nodup)
    (i : Nat) (table : OrderedMap ConnectorId Connector) :
    let added := (outputs.zipIdx i).foldl (fun t p => t.insert p.1 (.fedBy ⟨id, p.2⟩)) table
    (∀ j c, outputs[j]? = some c → added.get? c = some (.fedBy ⟨id, i + j⟩)) ∧
      ∀ c, c ∉ outputs → added.get? c = table.get? c := by
  induction outputs generalizing i table with
  | nil => simp
  | cons first outputs ih =>
    -- No later output overwrites the entry of the first one.
    obtain ⟨hfirst, hnodup⟩ := List.nodup_cons.mp hnodup
    obtain ⟨hin, hout⟩ := ih hnodup (i + 1) (table.insert first (.fedBy ⟨id, i⟩))
    refine ⟨fun j c hj => ?_, fun c hc => ?_⟩
    · cases j with
      | zero =>
        obtain rfl : first = c := by simpa using hj
        exact (hout first hfirst).trans (OrderedMap.get?_insert_self ..)
      | succ j =>
        have := hin j c (by simpa using hj)
        rwa [Nat.add_right_comm] at this
    · rw [List.mem_cons, not_or] at hc
      exact (hout c hc.2).trans (OrderedMap.get?_insert_of_ne _ _ hc.1)

theorem get?_addSources_of_getElem? {id : ExprId} {table : OrderedMap ConnectorId Connector}
    {outputs : List ConnectorId} (hnodup : outputs.Nodup) {j : Nat} {c : ConnectorId}
    (hj : outputs[j]? = some c) :
    (addSources id table outputs).get? c = some (.fedBy ⟨id, j⟩) := by
  have := (get?_addSources_from id hnodup 0 table).1 j c hj
  rwa [Nat.zero_add] at this

theorem get?_addSources_of_notMem {id : ExprId} {table : OrderedMap ConnectorId Connector}
    {outputs : List ConnectorId} (hnodup : outputs.Nodup) {c : ConnectorId} (hc : c ∉ outputs) :
    (addSources id table outputs).get? c = table.get? c :=
  (get?_addSources_from id hnodup 0 table).2 c hc

theorem get?_foldl_erase {table : OrderedMap ConnectorId Connector} {outputs : List ConnectorId}
    {c : ConnectorId} :
    (outputs.foldl (fun t c => t.erase c) table).get? c =
      if c ∈ outputs then none else table.get? c := by
  induction outputs generalizing table with
  | nil => simp
  | cons first outputs ih =>
    rw [List.foldl_cons, ih, OrderedMap.get?_erase]
    by_cases h : c = first <;> simp [h]

end Body

end TensorIR
