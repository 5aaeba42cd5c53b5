import TensorIR.Model

/-!
# Models that are built by additions

An addition is accepted exactly when the node has its operands and all of them are outputs of nodes
that are there already. So whatever is built by additions is well-formed, also when some of them
were refused on the way.
-/

set_option autoImplicit false

namespace TensorIR.Model

variable {m m' : Model} {ref : OutputRef} {refs : List OutputRef} {node : Node}

/-! ## What an addition checks -/

theorem checkRef_eq_ok_iff (reader : String) :
    m.checkRef reader ref = .ok () ↔ Resolves m.nodes ref := by
  unfold checkRef Resolves
  cases m.nodes[ref.node]? with
  | none => simp
  | some producer => by_cases h : ref.port < producer.node.outputCount <;> simp [h]

theorem checkRefs_eq_ok_iff (reader : String) :
    m.checkRefs reader refs = .ok () ↔ ∀ ref ∈ refs, Resolves m.nodes ref := by
  induction refs with
  | nil => simp [checkRefs]
  | cons ref refs ih =>
    rw [List.forall_mem_cons, ← ih, ← checkRef_eq_ok_iff reader, checkRefs]
    cases m.checkRef reader ref <;> simp [bind, Except.bind]

theorem add?_eq_ok_iff : m.add? node refs = .ok m' ↔
    refs.length = node.inputCount ∧ (∀ ref ∈ refs, Resolves m.nodes ref) ∧
      m' = ⟨m.nodes ++ [⟨node, refs⟩]⟩ := by
  rw [← checkRefs_eq_ok_iff node.name, add?]
  by_cases h : refs.length = node.inputCount
  · cases m.checkRefs node.name refs <;> simp [h, Except.map, eq_comm]
  · simp [h]

/-- References to nodes that are there are refused for their port at most. -/
theorem checkRefs_ne_unknownProducer (h : ∀ ref ∈ refs, ref.node < m.nodes.length)
    (reader name : String) (input : OutputRef) :
    m.checkRefs reader refs ≠ .error (.unknownProducer name input) := by
  induction refs with
  | nil => simp [checkRefs]
  | cons ref refs ih =>
    obtain ⟨hlt, hrefs⟩ := List.forall_mem_cons.mp h
    rw [checkRefs, checkRef, List.getElem?_eq_getElem hlt]
    dsimp only
    split
    · exact ih hrefs
    · simp [bind, Except.bind]

theorem add?_ne_unknownProducer (h : ∀ ref ∈ refs, ref.node < m.nodes.length) (name : String)
    (input : OutputRef) : m.add? node refs ≠ .error (.unknownProducer name input) := by
  unfold add?
  split
  · have hrefs := checkRefs_ne_unknownProducer h node.name name input
    revert hrefs
    cases m.checkRefs node.name refs <;> simp [Except.map]
  · simp

/-! ## Well-formedness -/

theorem wellFormed_empty : empty.WellFormed := by
  intro k n hn
  simp [empty] at hn

/-- A node that is accepted refers to nodes before it, and the others are not affected. -/
theorem WellFormed.add? (h : m.WellFormed) (hadd : m.add? node refs = .ok m') :
    m'.WellFormed := by
  obtain ⟨hcount, hrefs, rfl⟩ := add?_eq_ok_iff.mp hadd
  intro k n hn
  rcases Nat.lt_trichotomy k m.nodes.length with hk | rfl | hk
  · rw [List.getElem?_append_left hk] at hn
    rw [List.take_append_of_le_length (Nat.le_of_lt hk)]
    exact h k n hn
  · rw [List.getElem?_concat_length] at hn
    obtain rfl := Option.some.inj hn
    rw [List.take_left]
    exact ⟨hcount, hrefs⟩
  · rw [List.getElem?_eq_none (by simpa using Nat.succ_le_of_lt hk)] at hn
    cases hn

/-- The model after an addition, which may be refused. -/
def tryAdd (m : Model) (call : ModelNode) : Model :=
  match m.add? call.node call.inputs with
  | .ok m' => m'
  | .error _ => m

/-- The model after a sequence of additions to the empty model. -/
def built (calls : List ModelNode) : Model := calls.foldl tryAdd empty

theorem WellFormed.tryAdd (h : m.WellFormed) (call : ModelNode) : (m.tryAdd call).WellFormed := by
  unfold Model.tryAdd
  split
  next hadd => exact h.add? hadd
  next => exact h

theorem wellFormed_built (calls : List ModelNode) : (built calls).WellFormed := by
  have run : ∀ m : Model, m.WellFormed → (calls.foldl Model.tryAdd m).WellFormed := by
    induction calls with
    | nil => exact fun m h => h
    | cons call calls ih => exact fun m h => ih _ (h.tryAdd call)
  exact run empty wellFormed_empty

end TensorIR.Model
