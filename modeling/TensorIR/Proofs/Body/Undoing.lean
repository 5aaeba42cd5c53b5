import TensorIR.Body.Snapshot
import TensorIR.Proofs.Body.Rewiring

/-!
# Edits can be undone

What an insertion has added a removal takes away, and a rewired operand can be sent back to the
connector that it read before. In both cases the tables are the same as before, not only in what
they mean: a connector gets exactly the readers back that it had, however often the expression reads
it. Numbers and ordinals that were handed out stay used.

That the second call is admitted has to do with the order. The outputs of a new expression are read
by nobody, and an operand that read a connector runs after its producer, wherever it was sent in the
meantime.
-/

set_option autoImplicit false

namespace TensorIR

/-- To register readers that were none and to let them go again changes nothing. -/
theorem Connector.dropReaders_addReaders {c : Connector} {slots : List Slot}
    (h : ∀ slot ∈ slots, c.reads slot = false) : (c.addReaders slots).dropReaders slots = c := by
  refine ext_reads (by simp) fun slot => ?_
  rw [reads_dropReaders, reads_addReaders]
  by_cases hslot : slot ∈ slots
  · simp [hslot, h slot hslot]
  · simp [hslot]

namespace Body

variable {b b' b'' : Body}

/-! ## An insertion and a removal -/

theorem filter_insertIdx {order : List ExprId} {id : ExprId} (hid : id ∉ order) (position : Nat) :
    (order.insertIdx position id).filter (· ≠ id) = order := by
  induction order generalizing position with
  | nil => cases position <;> simp
  | cons first order ih =>
    obtain ⟨hfirst, hrest⟩ := not_or.mp (mt List.mem_cons.mpr hid)
    cases position with
    | zero => simpa using ⟨Ne.symm hfirst, fun a ha hne => hrest (hne ▸ ha)⟩
    | succ position =>
      rw [List.insertIdx_succ_cons, List.filter_cons_of_pos (by simpa using Ne.symm hfirst),
        ih hrest]

variable {position : Nat} {node : Node} {inputs : List ConnectorId} {e : Expression}

/-- Nobody reads what a new expression produces. -/
theorem Inserted.unread (hi : Inserted b position node inputs e b') (hw : Wired b') :
    b'.Unread e := by
  intro c hc slot hreads
  rw [hi.outputConnectors] at hc
  obtain ⟨j, hj⟩ := List.mem_iff_getElem?.mp hc
  have hlisted := hw.reads (hi.fresh j c hj) hreads
  rw [Connector.reads_fedBy] at hlisted
  cases hlisted

/-- The body before an insertion, apart from what was handed out. -/
theorem Inserted.removed (h : Coherent b) (harity : inputs.length = node.inputCount)
    (hi : Inserted b position node inputs e b') (hr : Removed b' b.freshId e b'') :
    b'' = { b with
      ids := b'.ids, nextInput := b'.nextInput, nextOutput := b'.nextOutput } := by
  apply ext_get?
  · intro id
    rw [hr.exprs, OrderedMap.get?_erase, hi.exprs]
    by_cases hid : id = b.freshId
    · rw [if_pos hid, hid]
      exact h.get?_freshId.symm
    · rw [if_neg hid]
      exact OrderedMap.get?_insert_of_ne _ _ hid
  · intro c
    rw [hr.connectors, hi.outputConnectors, hi.inputConnectors harity]
    show _ = b.connectors.get? c
    by_cases hc : c ∈ b.freshOutputs node
    · rw [if_pos hc]
      cases hk : b.connectors.get? c with
      | none => rfl
      | some k => exact absurd hc (h.notMem_freshOutputs hk)
    · rw [if_neg hc, hi.old c hc]
      cases hk : b.connectors.get? c with
      | none => rfl
      | some k =>
        -- The new operands were no readers before, since there was no such expression.
        have hnone : ∀ slot ∈ operandsOn b.freshId 0 inputs c, k.reads slot = false := by
          intro slot hslot
          refine Bool.eq_false_iff.mpr fun hreads => ?_
          obtain ⟨e', he', -⟩ := (h.reads_iff slot c).mpr ⟨k, hk, hreads⟩
          rw [(mem_operandsOn_zero.mp hslot).1, h.get?_freshId] at he'
          cases he'
        exact congrArg some (Connector.dropReaders_addReaders hnone)
  · rw [hr.order, hi.order]
    exact filter_insertIdx h.freshId_notMem position
  · exact hr.ids
  · exact hr.nextInput
  · exact hr.nextOutput
  · exact hr.provider.trans hi.provider

theorem Coherent.remove_inserted (h : Coherent b) {id : ExprId}
    (hcall : b.insert position node inputs = (.ok id, b')) :
    b'.remove id = (.ok (), { b with
      ids := b'.ids, nextInput := b'.nextInput, nextOutput := b'.nextOutput }) := by
  rcases insert_cases b position node inputs with
    ⟨err, -, heq⟩ | ⟨-, -, heq⟩ | ⟨hadm, harity, e, b₁, heq, hi⟩
  · rw [heq] at hcall
    cases hcall
  · rw [heq] at hcall
    cases hcall
  · rw [heq] at hcall
    cases hcall
    obtain ⟨hposition, hproduced⟩ := admits_eq_ok_iff.mp hadm
    have hw : Wired b' := Wired.inserted h hposition hproduced harity hi
    have he : b'.exprs.get? b.freshId = some e := by
      rw [hi.exprs]
      exact OrderedMap.get?_insert_self ..
    rcases hw.remove_cases b.freshId with ⟨err, hrefused, -⟩ | ⟨e', b₂, he', -, hremove, hr⟩
    · exact absurd (hi.unread hw) (hrefused e he)
    · obtain rfl := Option.some.inj (he.symm.trans he')
      rw [hremove, hi.removed h harity hr]

/-! ## A rewiring and its inverse -/

variable {slot : Slot} {previous target : ConnectorId}

theorem Rewired.undone (h : Wired b) (hreads : b.Reads slot previous) (hne : previous ≠ target)
    (hr : Rewired b slot previous target b') (hback : Rewired b' slot target previous b'') :
    b'' = b := by
  apply ext_get?
  · intro id
    rw [hback.get?_exprs, hr.get?_exprs]
    cases he : b.exprs.get? id with
    | none => rfl
    | some e =>
      refine congrArg some ?_
      unfold rewiredAt
      by_cases hid : id = slot.expr
      · subst hid
        obtain ⟨e', he', hc⟩ := hreads
        obtain rfl := Option.some.inj (he.symm.trans he')
        rw [if_pos rfl, if_pos rfl, Expression.modifyWire_input_twice,
          Expression.modifyWire_input_self hc]
      · rw [if_neg hid, if_neg hid]
  · intro c
    rw [hback.connectors, hr.connectors]
    cases hk : b.connectors.get? c with
    | none => rfl
    | some k =>
      refine congrArg some (Connector.ext_reads (by simp) fun other => ?_)
      simp only [reads_relisted]
      by_cases hother : other = slot
      · -- The operand is a reader of the connector that it read, and of no other.
        subst hother
        have hlisted : k.reads other = true ↔ c = previous := by
          constructor
          · intro hlisted
            exact reads_unique ((h.reads_iff other c).mpr ⟨k, hk, hlisted⟩) hreads
          · intro hc
            subst hc
            exact h.reads hk hreads
        simp only [if_true, hlisted]
        by_cases hc : c = previous <;> simp [hc]
      · simp [hother]
  · exact hback.order.trans hr.order
  · exact hback.ids.trans hr.ids
  · exact hback.nextInput.trans hr.nextInput
  · exact hback.nextOutput.trans hr.nextOutput
  · exact hback.provider.trans hr.provider

theorem Coherent.replaceInput_back (h : Coherent b) {port : Port}
    (hreads : b.Reads port.slot previous) (hcall : b.replaceInput port target = (.ok (), b')) :
    b'.replaceInput port previous = (.ok (), b) := by
  by_cases hne : previous = target
  · -- The call had nothing to do, and the second one is the same.
    subst hne
    have hidle : ¬ ∃ found, b.plan port previous = .ok (some found) := by
      intro hx
      obtain ⟨found, hplan⟩ := hx
      obtain ⟨-, hfound, hother, -⟩ := plan_eq_some_iff.mp hplan
      exact hother (reads_unique hfound hreads)
    have hsame : b' = b := by
      rw [← replaceInput_of_idle hidle, hcall]
    rw [hsame] at hcall ⊢
    exact hcall
  · obtain ⟨hplan, hr⟩ := h.rewired_of_replaceInput hreads hne hcall
    obtain ⟨hdirection, -, -, hmay⟩ := plan_eq_some_iff.mp hplan
    have hw : Wired b' :=
      h.toWired.rewired hreads ((mayRead_eq_ok_iff h.nodup).mp hmay) hr
    obtain ⟨k, hk⟩ := h.live_of_reads hreads
    -- What was read before runs before, and neither the order nor the source has changed.
    have hback : b'.plan port previous = .ok (some target) := by
      refine plan_eq_some_iff.mpr ⟨hdirection, ?_, Ne.symm hne, ?_⟩
      · rw [hr.reads_iff hreads, if_pos rfl]
      · rw [hr.mayRead, mayRead_eq_ok_iff h.nodup]
        exact ⟨k, hk, h.ordered port.slot previous k hreads hk⟩
    obtain ⟨b₂, heq, hr₂⟩ := hw.replaceInput_of_plan hback
    rw [heq, hr.undone h.toWired hreads hne hr₂]

/-- In every body that can come about, an insertion is undone by a removal, which restores the
snapshot and indeed everything but the supplies, and a rewiring is undone by one back to the
connector that was read before, which restores everything. -/
theorem edits_undone (h : Reachable b) :
    (∀ position node inputs id b', b.insert position node inputs = (.ok id, b') →
      ∃ restored, b'.remove id = (.ok (), restored) ∧ restored.snapshot = b.snapshot ∧
        restored = { b with
          ids := b'.ids, nextInput := b'.nextInput, nextOutput := b'.nextOutput }) ∧
    ∀ port previous target b', b.Reads port.slot previous →
      b.replaceInput port target = (.ok (), b') → b'.replaceInput port previous = (.ok (), b) := by
  have hc : Coherent b := h.coherent
  constructor
  · intro position node inputs id b' hcall
    exact ⟨_, hc.remove_inserted hcall, rfl, rfl⟩
  · intro port previous target b' hreads hcall
    exact hc.replaceInput_back hreads hcall

/-- An expression that reads the first parameter twice comes and goes, and the first operand of the
difference is sent to the second parameter and back. -/
theorem edits_undone_difference :
    Reachable difference ∧
      (∃ id b' restored, difference.insert 2 (.make "w" (.binary .add)) [⟨0⟩, ⟨0⟩] = (.ok id, b') ∧
        b'.remove id = (.ok (), restored) ∧ restored.snapshot = difference.snapshot) ∧
      ∃ b', difference.Reads ⟨⟨2⟩, 0⟩ ⟨0⟩ ∧
        difference.replaceInput ⟨⟨2⟩, .input, 0⟩ ⟨1⟩ = (.ok (), b') ∧
        b'.replaceInput ⟨⟨2⟩, .input, 0⟩ ⟨0⟩ = (.ok (), difference) := by
  obtain ⟨hinsert, hrewire⟩ := edits_undone reachable_difference
  have hreads : difference.Reads ⟨⟨2⟩, 0⟩ ⟨0⟩ := ⟨_, rfl, by decide⟩
  refine ⟨reachable_difference, ?_, ?_⟩
  · obtain ⟨restored, hremove, hsame, -⟩ :=
      hinsert 2 (.make "w" (.binary .add)) [⟨0⟩, ⟨0⟩] ⟨3⟩ _ rfl
    exact ⟨⟨3⟩, _, restored, rfl, hremove, hsame⟩
  · exact ⟨_, hreads, rfl, hrewire ⟨⟨2⟩, .input, 0⟩ ⟨0⟩ ⟨1⟩ _ hreads rfl⟩

end Body

end TensorIR
