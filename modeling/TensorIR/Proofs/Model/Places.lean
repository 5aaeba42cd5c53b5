import TensorIR.Proofs.Model.NameErrors
import TensorIR.Proofs.Source.Nesting

/-!
# Where problems are reported

A report on a program points at places, and those are places in the program: what is said of a
statement is said at the statement, at one of its parts or at a dimension. Only the report of a name
that is bound again points at another statement too, the one that bound it first, and that place
comes from the table of names. So the table is in the invariant that statements preserve
(`Builder.PlacedIn`).
-/

set_option autoImplicit false

namespace TensorIR

/-- All places that the report points at. -/
def Diagnostic.spans (d : Diagnostic) : List Span := d.span :: d.related.map RelatedSpan.span

/-- The problem is reported at some of these places. -/
def Problem.PlacedIn (places : List Span) (q : Problem) : Prop := q.diagnostic.spans ⊆ places

/-! ## The places in a statement -/

namespace Statement

variable {s : Statement} {a : Attr} {o : Operand} {id : Ident} {q : Problem}

theorem span_mem_places (s : Statement) : s.span ∈ s.places := List.mem_cons_self

theorem part_mem_places {span : Span} (h : span ∈ s.parts) : span ∈ s.places :=
  List.mem_cons_of_mem _ (List.mem_append_left _ h)

theorem result_mem_places (h : s.result = some id) : id.span ∈ s.places :=
  part_mem_places (List.mem_append_left _ (by simp [h]))

theorem op_mem_places (s : Statement) : s.op.span ∈ s.places :=
  part_mem_places (List.mem_append_right _ List.mem_cons_self)

theorem attr_mem_places (ha : a ∈ s.attrs) {span : Span} (h : span ∈ a.parts) :
    span ∈ s.places :=
  part_mem_places (List.mem_append_right _ (List.mem_cons_of_mem _
    (List.mem_append_left _ (List.mem_flatMap.mpr ⟨a, ha, h⟩))))

theorem operand_mem_places (ho : o ∈ s.operands) : o.name.span ∈ s.places :=
  part_mem_places (List.mem_append_right _ (List.mem_cons_of_mem _
    (List.mem_append_right _ (List.mem_map_of_mem ho))))

theorem item_mem_places (ha : a ∈ s.attrs) {span : Span} (h : span ∈ a.value.items) :
    span ∈ s.places :=
  List.mem_cons_of_mem _ (List.mem_append_right _ (List.mem_flatMap.mpr ⟨a, ha, h⟩))

end Statement

namespace Problem

variable {s : Statement} {q : Problem} {places : List Span}

theorem placedIn_of_span {span : Span} (hq : q.diagnostic.spans = [span]) (h : span ∈ places) :
    q.PlacedIn places := by
  intro span' hspan'
  rw [hq] at hspan'
  rwa [List.mem_singleton.mp hspan']

end Problem

namespace Statement

variable {s : Statement} {q : Problem}

/-- One case for each fault: it is reported where it is. -/
theorem Faults.placedIn (h : s.Faults q) : q.PlacedIn s.places := by
  cases h with
  | unknownOperation => exact Problem.placedIn_of_span rfl s.op_mem_places
  | missingAttribute name => exact Problem.placedIn_of_span rfl s.op_mem_places
  | illTyped ha wanted =>
    exact Problem.placedIn_of_span rfl
      (attr_mem_places ha (List.mem_cons_of_mem _ (List.mem_singleton_self _)))
  | negativeDimension ha hvalue hliteral =>
    refine Problem.placedIn_of_span rfl (item_mem_places ha ?_)
    rw [hvalue]
    exact List.mem_map_of_mem hliteral
  | customOperands declared => exact Problem.placedIn_of_span rfl s.span_mem_places
  | customOutputs declared => exact Problem.placedIn_of_span rfl s.span_mem_places

theorem placedIn_of_mem_remarks (h : q ∈ s.remarks) : q.PlacedIn s.places := by
  unfold remarks at h
  split at h
  next op hop =>
    obtain ⟨a, ha, rfl⟩ := List.mem_map.mp h
    exact Problem.placedIn_of_span rfl
      (attr_mem_places (List.mem_filter.mp ha).1 List.mem_cons_self)
  next problem hop =>
    obtain rfl := List.mem_singleton.mp h
    exact (s.failsWith_op? q hop).placedIn

end Statement

/-! ## One statement -/

namespace Builder

variable {b : Builder} {index : Nat} {s : Statement} {places : List Span}

/-- What the builder knows of places, it knows from some places. -/
structure PlacedIn (places : List Span) (b : Builder) : Prop where
  names : ∀ name binding, b.names.lookup name = some binding → binding.span ∈ places
  problems : ∀ q ∈ b.problems, q.PlacedIn places

theorem placedIn_initial (places : List Span) : PlacedIn places initial where
  names name binding h := by cases h
  problems q hq := by cases hq

theorem PlacedIn.report (h : PlacedIn places b) {problems : List Problem}
    (hproblems : ∀ q ∈ problems, q.PlacedIn places) : PlacedIn places (b.report problems) where
  names := h.names
  problems q hq := (List.mem_append.mp hq).elim (h.problems q) (hproblems q)

theorem spans_refusal (s : Statement) (err : ModelError) :
    (refusal s err).diagnostic.spans = [s.span] := by
  cases err <;> rfl

theorem PlacedIn.addNode (h : PlacedIn places b) (hs : s.span ∈ places) (node : Node)
    (refs : List OutputRef) : PlacedIn places (b.addNode s node refs).2 := by
  unfold Builder.addNode
  cases b.model.add? node refs with
  | error err =>
    refine h.report fun q hq => ?_
    obtain rfl := List.mem_singleton.mp hq
    exact Problem.placedIn_of_span (spans_refusal s err) hs
  | ok model =>
    have hmodel : PlacedIn places { b with model := model } := ⟨h.names, h.problems⟩
    dsimp only
    refine hmodel.report fun q hq => ?_
    split at hq
    · obtain rfl := List.mem_singleton.mp hq
      exact Problem.placedIn_of_span rfl hs
    · cases hq

theorem placedIn_of_mem_resolve (hs : s.places ⊆ places) (names : List (String × Binding)) :
    ∀ q ∈ (resolve names s.operands).2, q.PlacedIn places := by
  intro q hq
  rw [resolve_problems] at hq
  obtain ⟨o, ho, rfl⟩ := List.mem_map.mp hq
  exact Problem.placedIn_of_span rfl
    (hs (Statement.operand_mem_places (List.mem_filter.mp ho).1))

theorem PlacedIn.place (h : PlacedIn places b) (hs : s.places ⊆ places) (index : Nat) :
    PlacedIn places (b.place index s).2 := by
  have hremarks : ∀ q ∈ s.remarks, q.PlacedIn places :=
    fun q hq => List.Subset.trans (Statement.placedIn_of_mem_remarks hq) hs
  have hreport : PlacedIn places (b.report (s.remarks ++ (resolve b.names s.operands).2)) :=
    h.report fun q hq => (List.mem_append.mp hq).elim (hremarks q)
      (placedIn_of_mem_resolve hs b.names q)
  unfold Builder.place
  unfold Statement.remarks at hreport
  cases hop : s.op? with
  | error problem =>
    rw [hop] at hreport
    exact hreport
  | ok op =>
    rw [hop] at hreport
    cases hrefs : (resolve b.names s.operands).1 with
    | none => simpa only [hrefs] using hreport
    | some refs => simpa only [hrefs] using hreport.addNode (hs s.span_mem_places) _ _

theorem PlacedIn.bind (h : PlacedIn places b) {name : Ident} (hname : name.span ∈ places)
    (added : Option Nat) : PlacedIn places (b.bind name added) := by
  rcases b.bind_cases name added with ⟨-, heq⟩ | ⟨first, hlookup, heq⟩
  · rw [heq]
    refine ⟨fun other binding hother => ?_, h.problems⟩
    rw [List.lookup_cons] at hother
    split at hother
    · obtain rfl := Option.some.inj hother
      cases added <;> exact hname
    · exact h.names other binding hother
  · rw [heq]
    refine h.report fun q hq => ?_
    obtain rfl := List.mem_singleton.mp hq
    intro span hspan
    rcases List.mem_cons.mp hspan with rfl | hfirst
    · exact hname
    · obtain rfl := List.mem_singleton.mp hfirst
      exact h.names _ _ hlookup

theorem PlacedIn.statement (h : PlacedIn places b) (hs : s.places ⊆ places) (index : Nat) :
    PlacedIn places (b.statement index s) := by
  cases hresult : s.result with
  | none =>
    rw [statement_of_no_result hresult]
    exact h.place hs index
  | some name =>
    rw [statement_of_result hresult]
    exact (h.place hs index).bind (hs (Statement.result_mem_places hresult)) _

/-! ## Many statements -/

theorem PlacedIn.statements {ss : List Statement} (h : PlacedIn places b)
    (hss : ∀ s ∈ ss, s.places ⊆ places) (index : Nat) :
    PlacedIn places (b.statements index ss) := by
  induction ss generalizing b index with
  | nil => exact h
  | cons s ss ih =>
    obtain ⟨hs, hss⟩ := List.forall_mem_cons.mp hss
    exact ih (h.statement hs index) hss _

end Builder

/-- Every place that a report on a program points at is a place in one of its statements. -/
theorem Program.exists_place_of_diagnostic (p : Program) {d : Diagnostic}
    (hd : d ∈ p.model.diagnostics) {span : Span} (hspan : span ∈ d.spans) :
    ∃ s ∈ p.statements, span ∈ s.places := by
  obtain ⟨q, hq, rfl⟩ := List.mem_map.mp hd
  have hplaced : (Builder.initial.statements 0 p.statements).PlacedIn
      (p.statements.flatMap Statement.places) :=
    (Builder.placedIn_initial _).statements
      (fun s hs span hspan => List.mem_flatMap.mpr ⟨s, hs, hspan⟩) 0
  exact List.mem_flatMap.mp (hplaced.problems q hq hspan)

end TensorIR
