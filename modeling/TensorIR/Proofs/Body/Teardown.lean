import TensorIR.Proofs.Body.Ports
import TensorIR.Proofs.Body.Prefixes

/-!
# Taking a body apart

What runs last is read by nobody, so it can be removed, and then the same is true of what ran before
it. Removing from the end therefore never gets stuck (`Coherent.removeAll_eq`), and it may stop
anywhere: what is left is a body whose connectors are those of the expressions it still has.

Nothing stays behind at the end of it. A connector is fed by an expression that is scheduled, so
that a body without expressions has no connectors either; all that it keeps are the numbers and the
ordinals it has given out.
-/

set_option autoImplicit false

namespace TensorIR

namespace Body

variable {b b' b'' : Body} {ids rest removed : List ExprId} {id : ExprId}

/-- Remove expressions one after the other, up to the first that is refused. -/
def removeAll : Body → List ExprId → Except IrError Unit × Body
  | b, [] => (.ok (), b)
  | b, id :: ids =>
    match b.remove id with
    | (.error err, b) => (.error err, b)
    | (.ok (), b) => removeAll b ids

/-- The body has other expressions and connectors, but goes on numbering where it was. -/
def Renewed (b b' : Body) : Prop :=
  b' = { b with exprs := b'.exprs, connectors := b'.connectors, order := b'.order }

theorem Renewed.trans (h : Renewed b b') (h' : Renewed b' b'') : Renewed b b'' := by
  rw [Renewed, h', h]

theorem Removed.renewed {e : Expression} (hr : Removed b id e b') : Renewed b b' := by
  obtain ⟨-, -, -, hids, hinput, houtput, hprovider⟩ := hr
  cases b'
  simp_all [Renewed]

/-! ## The last expression -/

theorem Coherent.remove_last_ok (h : Coherent b) (horder : b.order = ids ++ [id]) :
    ∃ b', b.remove id = (.ok (), b') ∧ Renewed b b' := by
  obtain ⟨e, he⟩ : ∃ e, b.exprs.get? id = some e := (h.mem_order id).mp (by simp [horder])
  rcases h.toWired.remove_cases id with ⟨err, hread, -⟩ | ⟨_, b', -, -, hremove, hremoved⟩
  · exact absurd (h.toWired.unread_last horder he) (hread e he)
  · exact ⟨b', hremove, hremoved.renewed⟩

/-! ## All of them -/

/-- None of the removals is refused when one removes from the end. -/
theorem Coherent.removeAll_eq (h : Coherent b) (horder : b.order = ids ++ removed.reverse) :
    b.removeAll removed = (.ok (), removed.foldl (fun c id => (c.remove id).2) b) ∧
      Renewed b (removed.foldl (fun c id => (c.remove id).2) b) := by
  induction removed generalizing b with
  | nil => exact ⟨rfl, rfl⟩
  | cons id removed ih =>
    rw [List.reverse_cons, ← List.append_assoc] at horder
    obtain ⟨b', hremove, hrenewed⟩ := h.remove_last_ok horder
    obtain ⟨hcoherent, horder', -⟩ := h.remove_last horder
    rw [hremove] at hcoherent horder'
    obtain ⟨heq, hrenewed'⟩ := ih hcoherent horder'
    rw [Body.removeAll, List.foldl_cons, hremove]
    exact ⟨heq, hrenewed.trans hrenewed'⟩

/-- Removing what runs from a position on cuts the body off there. -/
theorem Coherent.removeAll_cutOff (h : Coherent b) (horder : b.order = ids ++ rest) :
    b.removeAll rest.reverse = (.ok (), b.cutOff ids.length) ∧
      Renewed b (b.cutOff ids.length) := by
  have hdrop : b.order.drop ids.length = rest := by rw [horder, List.drop_left]
  rw [Body.cutOff, hdrop]
  exact h.removeAll_eq (by rw [horder, List.reverse_reverse])

/-! ## Nothing left -/

/-- Where nothing is scheduled there is nothing in the tables. -/
theorem Wired.tables_empty (h : Wired b) (horder : b.order = []) :
    b.exprs = .empty ∧ b.connectors = .empty := by
  have hnone : ∀ id, b.exprs.get? id = none := by
    intro id
    apply Option.eq_none_iff_forall_ne_some.mpr
    intro e he
    have hmem : id ∈ b.order := (h.mem_order id).mpr ⟨e, he⟩
    simp [horder] at hmem
  refine ⟨OrderedMap.ext_get? hnone, OrderedMap.ext_get? fun c => ?_⟩
  apply Option.eq_none_iff_forall_ne_some.mpr
  intro k hk
  obtain ⟨e, he, -⟩ := h.feeds_source hk
  rw [hnone] at he
  cases he

/-- In every body that can come about, the last expression can be removed if there is one. Going on
from there removes any last part of the schedule, and nothing but the expressions in it and the
connectors that these feed; in the end the body is empty, and has no connectors. -/
theorem teardown_complete (h : Reachable b) :
    (∀ hne : b.order ≠ [], ∃ b', b.remove (b.order.getLast hne) = (.ok (), b') ∧
      b'.order = b.order.dropLast) ∧
    (∀ kept rest, b.order = kept ++ rest → ∃ b', b.removeAll rest.reverse = (.ok (), b') ∧
      Reachable b' ∧ b'.order = kept ∧ (∀ id ∈ kept, b'.expr id = b.expr id) ∧
      b'.connectors.size = (b'.scheduled.map fun e => e.outputs.length).sum) ∧
    ∃ b', b.removeAll b.order.reverse = (.ok (), b') ∧ b'.order = [] ∧ b'.connectors.size = 0 ∧
      b' = { empty b.provider with
        ids := b.ids, nextInput := b.nextInput, nextOutput := b.nextOutput } := by
  have hc : Coherent b := h.coherent
  refine ⟨?_, ?_, ?_⟩
  · intro hne
    have horder : b.order = b.order.dropLast ++ [b.order.getLast hne] :=
      (List.dropLast_append_getLast hne).symm
    obtain ⟨b', hremove, -⟩ := hc.remove_last_ok horder
    obtain ⟨-, horder', -⟩ := hc.remove_last horder
    rw [hremove] at horder'
    exact ⟨b', hremove, horder'⟩
  · intro kept rest horder
    obtain ⟨hremoveAll, -⟩ := hc.removeAll_cutOff horder
    obtain ⟨hcoherent, hkept, hagree⟩ := hc.cutOff horder
    refine ⟨b.cutOff kept.length, hremoveAll, h.cutOff kept.length, hkept, ?_,
      hcoherent.toWired.size_connectors⟩
    intro id hid
    rw [expr, expr, hagree.exprs id hid]
  · have horder : b.order = [] ++ b.order := rfl
    obtain ⟨hremoveAll, hrenewed⟩ := hc.removeAll_cutOff horder
    obtain ⟨hcoherent, hkept, -⟩ := hc.cutOff horder
    obtain ⟨hexprs, hconnectors⟩ := hcoherent.toWired.tables_empty hkept
    refine ⟨_, hremoveAll, hkept, by rw [hconnectors]; rfl, ?_⟩
    rw [hrenewed, hexprs, hconnectors, hkept]
    rfl

/-- The last three expressions can be removed from the end, but the parameter not before its
readers. -/
theorem teardown_complete_fanOut :
    Reachable fanOut ∧ fanOut.order = [⟨0⟩, ⟨2⟩, ⟨3⟩] ∧
      fanOut.remove ⟨0⟩ =
        (.error (.invalidState (.stillRead ⟨0⟩ ⟨0⟩ ⟨⟨2⟩, .input, 0⟩)), fanOut) ∧
      ∃ b', fanOut.removeAll [⟨3⟩, ⟨2⟩, ⟨0⟩] = (.ok (), b') ∧ b'.order = [] ∧
        b'.connectors.size = 0 := by
  have horder : fanOut.order = [⟨0⟩, ⟨2⟩, ⟨3⟩] := by decide
  obtain ⟨-, -, b', hremoveAll, hempty, hsize, -⟩ := teardown_complete reachable_fanOut
  rw [horder] at hremoveAll
  exact ⟨reachable_fanOut, horder, rfl, b', hremoveAll, hempty, hsize⟩

end Body

end TensorIR
