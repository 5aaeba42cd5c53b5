import TensorIR.Proofs.Body.Reachable

/-!
# Which edits are admitted

An edit goes through exactly when its result is sound, and one that does not go through leaves
nothing behind. The conditions are stated by look-ups in the body before the edit. The one exception
is an insertion that has been given a wrong number of operands, and nothing else is wrong with it:
it has used up the numbers it was going to hand out.
-/

set_option autoImplicit false

namespace TensorIR.Body

variable {b : Body}

/-- The connector is live and produced by an expression that is scheduled before the position. -/
def AvailableAt (b : Body) (position : Nat) (c : ConnectorId) : Prop :=
  ∃ k id e p, b.connector c = .ok k ∧ b.expr id = .ok e ∧ c ∈ e.outputConnectors ∧
    b.position id = .ok p ∧ p < position

theorem Wired.producedBefore_iff (h : Wired b) {position : Nat} {c : ConnectorId} :
    b.ProducedBefore position c ↔ b.AvailableAt position c := by
  constructor
  · intro hx
    obtain ⟨k, p, hk, hp, hlt⟩ := hx
    obtain ⟨e, he, hc⟩ := h.feeds_source hk
    exact ⟨k, k.source.expr, e, p, connector_eq_ok_iff.mpr hk, expr_eq_ok_iff.mpr he,
      List.mem_of_getElem? hc, hp, hlt⟩
  · intro hx
    obtain ⟨k, id, e, p, hk, he, hc, hp, hlt⟩ := hx
    have hget := connector_eq_ok_iff.mp hk
    have hsource := (h.source_expr_iff (expr_eq_ok_iff.mp he) hget).mpr hc
    exact ⟨k, p, hget, hsource ▸ hp, hlt⟩

theorem Wired.mayRead_iff (h : Wired b) {reader : ExprId} {c : ConnectorId} :
    b.MayRead reader c ↔ ∃ q, b.position reader = .ok q ∧ b.AvailableAt q c := by
  simp only [← h.producedBefore_iff, MayRead, runsBefore_iff h.nodup, ProducedBefore]
  constructor
  · intro hx
    obtain ⟨k, hk, p, q, hp, hq, hlt⟩ := hx
    exact ⟨q, hq, k, p, hk, hp, hlt⟩
  · intro hx
    obtain ⟨q, hq, k, p, hk, hp, hlt⟩ := hx
    exact ⟨k, hk, p, q, hp, hq, hlt⟩

/-- There is such a position, and everything to be read is available there. -/
def Placeable (b : Body) (position : Nat) (inputs : List ConnectorId) : Prop :=
  position ≤ b.order.length ∧ ∀ c ∈ inputs, b.AvailableAt position c

theorem Wired.admits_iff (h : Wired b) {position : Nat} (node : Node)
    {inputs : List ConnectorId} :
    b.admits position node inputs = .ok () ↔ b.Placeable position inputs := by
  simp only [admits_eq_ok_iff, Placeable, h.producedBefore_iff]

theorem Wired.insert_exact (h : Wired b) (position : Nat) (node : Node)
    (inputs : List ConnectorId) :
    ((∃ id, (b.insert position node inputs).1 = .ok id) ↔
      b.Placeable position inputs ∧ inputs.length = node.inputCount) ∧
    ∀ err, (b.insert position node inputs).1 = .error err →
      (b.insert position node inputs).2 = b ∨
      (b.Placeable position inputs ∧ inputs.length ≠ node.inputCount ∧
        ∃ ids, (b.insert position node inputs).2 = { b with ids := ids }) := by
  rw [← h.admits_iff node]
  rcases insert_cases b position node inputs with
    ⟨err, hadm, heq⟩ | ⟨hadm, harity, heq⟩ | ⟨hadm, harity, e, b', heq, -⟩
  · rw [heq, hadm]
    exact ⟨by simp, fun _ _ => .inl rfl⟩
  · rw [heq, hadm]
    exact ⟨by simp [harity], fun _ _ => .inr ⟨rfl, harity, b.idsAfter node, rfl⟩⟩
  · rw [heq, hadm]
    exact ⟨by simp [harity], fun _ herr => (by cases herr)⟩

theorem Wired.remove_exact (h : Wired b) (id : ExprId) :
    ((b.remove id).1 = .ok () ↔
      ∃ e, b.expr id = .ok e ∧ ∀ c ∈ e.outputConnectors,
        ∀ id' e', b.expr id' = .ok e' → c ∉ e'.inputConnectors) ∧
    ∀ err, (b.remove id).1 = .error err → (b.remove id).2 = b := by
  -- That no slot reads a connector is the same as that no expression has it among its operands.
  have hunread : ∀ e, b.Unread e ↔ ∀ c ∈ e.outputConnectors,
      ∀ id' e', b.expr id' = .ok e' → c ∉ e'.inputConnectors := by
    refine fun e => forall_congr' fun c => forall_congr' fun _ => ⟨fun hnone id' e' he' hc => ?_,
      fun hnone slot hreads => ?_⟩
    · obtain ⟨i, hreads⟩ := Reads.of_mem (expr_eq_ok_iff.mp he') hc
      exact hnone _ hreads
    · obtain ⟨e', he', hc⟩ := hreads
      exact hnone slot.expr e' (expr_eq_ok_iff.mpr he') (List.mem_of_getElem? hc)
  simp only [← hunread]
  rw [exists_congr fun e => and_congr_left fun _ => expr_eq_ok_iff]
  rcases h.remove_cases id with ⟨err, hrefused, heq⟩ | ⟨e, b', he, hnone, heq, -⟩
  · rw [heq]
    refine ⟨⟨fun hok => (by cases hok), ?_⟩, fun _ _ => rfl⟩
    intro hx
    obtain ⟨e, he, hnone⟩ := hx
    exact absurd hnone (hrefused e he)
  · rw [heq]
    exact ⟨⟨fun _ => ⟨e, he, hnone⟩, fun _ => rfl⟩, fun _ herr => (by cases herr)⟩

theorem Wired.replaceInput_exact (h : Wired b) (port : Port) (target : ConnectorId) :
    ((b.replaceInput port target).1 = .ok () ↔
      port.direction = .input ∧ ∃ e previous, b.expr port.expr = .ok e ∧
        e.inputConnectors[port.index]? = some previous ∧
        (previous = target ∨ ∃ q, b.position port.expr = .ok q ∧ b.AvailableAt q target)) ∧
    ∀ err, (b.replaceInput port target).1 = .error err → (b.replaceInput port target).2 = b := by
  have hrewirable : b.Rewirable port target ↔
      port.direction = .input ∧ ∃ e previous, b.expr port.expr = .ok e ∧
        e.inputConnectors[port.index]? = some previous ∧
        (previous = target ∨ ∃ q, b.position port.expr = .ok q ∧ b.AvailableAt q target) := by
    simp only [Rewirable, h.mayRead_iff, expr_eq_ok_iff]
    refine and_congr_right fun _ => ⟨?_, ?_⟩
    · intro hx
      obtain ⟨previous, ⟨e, he, hc⟩, hor⟩ := hx
      exact ⟨e, previous, he, hc, hor⟩
    · intro hx
      obtain ⟨e, previous, he, hc, hor⟩ := hx
      exact ⟨previous, ⟨e, he, hc⟩, hor⟩
  rw [← hrewirable]
  rcases h.replaceInput_cases port target with
    ⟨err, hrefused, heq⟩ | ⟨hok, heq⟩ | ⟨previous, b', hok, -, -, heq, -⟩
  · rw [heq]
    exact ⟨⟨fun hok => (by cases hok), fun hok => absurd hok hrefused⟩, fun _ _ => rfl⟩
  · rw [heq]
    exact ⟨⟨fun _ => hok, fun _ => rfl⟩, fun _ herr => (by cases herr)⟩
  · rw [heq]
    exact ⟨⟨fun _ => hok, fun _ => rfl⟩, fun _ herr => (by cases herr)⟩

/-- In every body that can come about, the structural edits are admitted exactly when they should
be, and a refused edit changes nothing. -/
theorem edits_exact_of_reachable (h : Reachable b) :
    (∀ position node inputs,
      ((∃ id, (b.insert position node inputs).1 = .ok id) ↔
        b.Placeable position inputs ∧ inputs.length = node.inputCount) ∧
      ∀ err, (b.insert position node inputs).1 = .error err →
        (b.insert position node inputs).2 = b ∨
        (b.Placeable position inputs ∧ inputs.length ≠ node.inputCount ∧
          ∃ ids, (b.insert position node inputs).2 = { b with ids := ids })) ∧
    (∀ id,
      ((b.remove id).1 = .ok () ↔
        ∃ e, b.expr id = .ok e ∧ ∀ c ∈ e.outputConnectors,
          ∀ id' e', b.expr id' = .ok e' → c ∉ e'.inputConnectors) ∧
      ∀ err, (b.remove id).1 = .error err → (b.remove id).2 = b) ∧
    ∀ port target,
      ((b.replaceInput port target).1 = .ok () ↔
        port.direction = .input ∧ ∃ e previous, b.expr port.expr = .ok e ∧
          e.inputConnectors[port.index]? = some previous ∧
          (previous = target ∨ ∃ q, b.position port.expr = .ok q ∧ b.AvailableAt q target)) ∧
      ∀ err, (b.replaceInput port target).1 = .error err →
        (b.replaceInput port target).2 = b :=
  ⟨h.coherent.toWired.insert_exact, h.coherent.toWired.remove_exact,
    h.coherent.toWired.replaceInput_exact⟩

/-- A parameter that is read cannot be removed. -/
theorem edits_exact_echo : Reachable echo ∧
    (echo.remove ⟨0⟩).1 = .error (.invalidState (.stillRead ⟨0⟩ ⟨0⟩ ⟨⟨1⟩, .input, 0⟩)) ∧
    (echo.remove ⟨0⟩).2 = echo :=
  have hrefused : (echo.remove ⟨0⟩).1 =
    .error (.invalidState (.stillRead ⟨0⟩ ⟨0⟩ ⟨⟨1⟩, .input, 0⟩)) := by rfl
  ⟨reachable_echo, hrefused, ((edits_exact_of_reachable reachable_echo).2.1 ⟨0⟩).2 _ hrefused⟩

end TensorIR.Body
