import TensorIR.Model.Build
import TensorIR.Proofs.Except
import TensorIR.Proofs.Model.WellFormed
import TensorIR.Proofs.Pointwise

/-!
# What becomes of the statements of a program

A statement adds its node, or it does not and there is an error to show for it
(`Builder.place_cases`). The error need not be its own: an operand may be bound to a failure, and
then the report was made where the name was bound. That such a report exists is part of what holds
of every builder (`Builder.Sound`).

A builder never takes anything back (`Builder.Grows`), so what a statement finds and adds can be
read off the finished model (`Program.built`), and without errors every statement has its node, at
its own position (`Program.nodeOf?_of_clean`).
-/

set_option autoImplicit false

namespace TensorIR

/-! ## Problems that are errors -/

/-- The problem stops the compilation. -/
def Problem.IsError (p : Problem) : Prop := p.diagnostic.severity = .error

/-- If the reading of an attribute fails, it does so with an error. -/
def FailsWithError {α : Type} (outcome : Except Problem α) : Prop :=
  ∀ p, outcome = .error p → p.IsError

/-- The problem is one with the operation of a statement or with its attributes. -/
def Problem.OfDescription : Problem → Prop
  | .unknownOperation _ | .missingAttribute _ _ | .illTyped _ _ _ _ | .negativeDimension _
  | .customOperands _ _ _ | .customOutputs _ _ => True
  | _ => False

theorem Problem.OfDescription.isError {p : Problem} (h : p.OfDescription) : p.IsError := by
  cases p <;> first | rfl | exact h.elim

/-- If the reading of a statement fails, it is for its operation or its attributes. -/
def FailsToDescribe {α : Type} (outcome : Except Problem α) : Prop :=
  ∀ p, outcome = .error p → p.OfDescription

/-- What can be wrong with the operation and the attributes of a statement, and where. -/
inductive Statement.Faults (s : Statement) : Problem → Prop
  | unknownOperation : Faults s (.unknownOperation s.op)
  | missingAttribute (name : String) : Faults s (.missingAttribute s.op name)
  | illTyped {a : Attr} (ha : a ∈ s.attrs) (wanted : AttrKind) :
    Faults s (.illTyped s.op.name a.name.name wanted a.value.span)
  | negativeDimension {a : Attr} {literals : List DimLiteral} {n : Int} {outer span : Span}
    (ha : a ∈ s.attrs) (hvalue : a.value = .dims literals outer)
    (hliteral : .fixed n span ∈ literals) : Faults s (.negativeDimension span)
  | customOperands (declared : Nat) :
    Faults s (.customOperands declared s.operands.length s.span)
  | customOutputs (declared : Nat) : Faults s (.customOutputs declared s.span)

theorem Statement.Faults.ofDescription {s : Statement} {p : Problem} (h : s.Faults p) :
    p.OfDescription := by
  cases h <;> trivial

namespace Statement

open FailsWith

variable {s : Statement} {name : String}

theorem exists_of_attr {value : AttrValue} (h : s.attr name = .ok value) :
    ∃ a ∈ s.attrs, a.name.name = name ∧ a.value = value := by
  unfold attr at h
  split at h
  next a hfind =>
    obtain rfl := Except.ok.inj h
    exact ⟨a, List.mem_of_find?_eq_some hfind, by simpa using List.find?_some hfind, rfl⟩
  next => cases h

/-- The value of an attribute has its place in the statement. -/
theorem faults_illTyped {value : AttrValue} (h : s.attr name = .ok value) (wanted : AttrKind) :
    s.Faults (s.illTyped name value wanted) := by
  obtain ⟨a, ha, rfl, rfl⟩ := exists_of_attr h
  exact .illTyped ha wanted

variable (s : Statement) (name : String)

theorem failsWith_attr : FailsWith s.Faults (s.attr name) := by
  unfold attr
  split
  · exact ok _
  · exact error (.missingAttribute name)

theorem failsWith_countAttr : FailsWith s.Faults (s.countAttr name) := by
  refine (s.failsWith_attr name).bind fun value hvalue => ?_
  split
  · split
    · exact ok _
    · exact error (faults_illTyped hvalue _)
  · exact error (faults_illTyped hvalue _)

theorem failsWith_numberAttr : FailsWith s.Faults (s.numberAttr name) := by
  refine (s.failsWith_attr name).bind fun value hvalue => ?_
  split
  · exact ok _
  · exact ok _
  · exact error (faults_illTyped hvalue _)

theorem failsWith_nameAttr : FailsWith s.Faults (s.nameAttr name) := by
  refine (s.failsWith_attr name).bind fun value hvalue => ?_
  split
  · exact ok _
  · exact error (faults_illTyped hvalue _)

theorem failsWith_dims {literals : List DimLiteral} {span : Span}
    (hvalue : s.attr name = .ok (.dims literals span)) :
    FailsWith s.Faults (literals.mapM dim) := by
  obtain ⟨a, ha, -, hdims⟩ := exists_of_attr hvalue
  refine .mapM fun literal hliteral => ?_
  cases literal with
  | fixed n span =>
    simp only [dim]
    split
    · exact ok _
    · exact error (.negativeDimension ha hdims hliteral)
  | dynamic span => exact ok _

theorem failsWith_shapeAttr : FailsWith s.Faults (s.shapeAttr name) := by
  refine (s.failsWith_attr name).bind fun value hvalue => ?_
  split
  · exact (s.failsWith_dims name hvalue).bind fun _ _ => ok _
  · exact error (faults_illTyped hvalue _)

theorem failsWith_custom? : FailsWith s.Faults s.custom? := by
  refine (s.failsWith_nameAttr _).bind fun name _ => ?_
  refine (s.failsWith_countAttr _).bind fun inputs _ => ?_
  refine (s.failsWith_countAttr _).bind fun outputs _ => ?_
  dsimp only
  split
  · show FailsWith s.Faults (.error (.customOperands inputs s.operands.length s.span))
    exact error (.customOperands inputs)
  · split
    · exact error (.customOutputs outputs)
    · exact ok _

/-- The description of an operation fails for what the statement says and where it says so. -/
theorem failsWith_op? : FailsWith s.Faults s.op? := by
  unfold op?
  split
  case h_1 => exact (s.failsWith_shapeAttr _).bind fun _ _ => ok _
  case h_3 => exact (s.failsWith_numberAttr _).bind fun _ _ => ok _
  case h_13 | h_14 | h_15 => exact (s.failsWith_countAttr _).bind fun _ _ => ok _
  case h_19 => exact s.failsWith_custom?
  case h_20 => exact error .unknownOperation
  all_goals exact ok _

theorem failsToDescribe_op? : FailsToDescribe s.op? := by
  intro p hp
  exact (s.failsWith_op? p hp).ofDescription

theorem failsWithError_op? : FailsWithError s.op? := by
  intro p hp
  exact (s.failsToDescribe_op? p hp).isError

end Statement

namespace Builder

variable {b b' b'' : Builder} {index : Nat} {s : Statement} {names : List (String × Binding)}

/-- An error was reported. -/
def Failing (b : Builder) : Prop := ∃ p ∈ b.problems, p.IsError

theorem isError_refusal (s : Statement) (err : ModelError) : (refusal s err).IsError := by
  cases err <;> rfl

/-! ## Operands -/

/-- The operand stands for the output: its name is bound to the node. -/
def Denotes (names : List (String × Binding)) (operand : Operand) (ref : OutputRef) : Prop :=
  (∃ span, names.lookup operand.name.name = some (.node ref.node span)) ∧
    operand.port = ref.port

/-- The operand is bound to a failure. -/
def Poisoned (names : List (String × Binding)) (operand : Operand) : Prop :=
  ∃ span, names.lookup operand.name.name = some (.failed span)

theorem Denotes.unique {operand : Operand} {ref ref' : OutputRef}
    (h : Denotes names operand ref) (h' : Denotes names operand ref') : ref = ref' := by
  obtain ⟨⟨span, hlookup⟩, hport⟩ := h
  obtain ⟨⟨span', hlookup'⟩, hport'⟩ := h'
  obtain ⟨hnode, -⟩ := Binding.node.inj (Option.some.inj (hlookup.symm.trans hlookup'))
  cases ref
  cases ref'
  simp_all

/-- Operands either all stand for outputs, or there is none of the list to be had. -/
theorem resolve_cases (names : List (String × Binding)) (operands : List Operand) :
    (∃ refs, resolve names operands = (some refs, []) ∧
      List.Forall₂ (Denotes names) operands refs) ∨
    ((resolve names operands).1 = none ∧
      ((∃ p ∈ (resolve names operands).2, p.IsError) ∨ ∃ o ∈ operands, Poisoned names o)) := by
  induction operands with
  | nil => exact .inl ⟨[], rfl, .nil⟩
  | cons operand operands ih =>
    cases hlookup : names.lookup operand.name.name with
    | none =>
      refine .inr ⟨by simp only [resolve, hlookup], .inl ⟨.undefinedValue operand.name, ?_, rfl⟩⟩
      simp only [resolve, hlookup]
      exact List.mem_cons_self
    | some binding =>
      cases binding with
      | failed span =>
        exact .inr ⟨by simp only [resolve, hlookup],
          .inr ⟨operand, List.mem_cons_self, span, hlookup⟩⟩
      | node index span =>
        rcases ih with ⟨refs, hrefs, hall⟩ | ⟨hnone, hwhy⟩
        · exact .inl ⟨⟨index, operand.port⟩ :: refs, by simp only [resolve, hlookup, hrefs]; rfl,
            .cons ⟨⟨span, hlookup⟩, rfl⟩ hall⟩
        · refine .inr ⟨by simp only [resolve, hlookup, hnone]; rfl, hwhy.imp ?_ ?_⟩
          · simp only [resolve, hlookup]
            exact id
          · exact fun ⟨o, ho, hpoisoned⟩ => ⟨o, List.mem_cons_of_mem _ ho, hpoisoned⟩

/-! ## Nothing is taken back -/

/-- The second builder has everything that the first has. -/
structure Grows (b b' : Builder) : Prop where
  nodes : b.model.nodes <+: b'.model.nodes
  names : ∀ name binding, b.names.lookup name = some binding →
    b'.names.lookup name = some binding
  problems : b.problems <+: b'.problems

theorem Grows.refl (b : Builder) : Grows b b :=
  ⟨List.prefix_rfl, fun _ _ h => h, List.prefix_rfl⟩

theorem Grows.trans (h : Grows b b') (h' : Grows b' b'') : Grows b b'' where
  nodes := h.nodes.trans h'.nodes
  names name binding hlookup := h'.names name binding (h.names name binding hlookup)
  problems := h.problems.trans h'.problems

theorem Grows.failing (h : Grows b b') (hf : b.Failing) : b'.Failing := by
  obtain ⟨p, hp, herror⟩ := hf
  exact ⟨p, h.problems.subset hp, herror⟩

theorem Grows.node (h : Grows b b') {k : Nat} {n : ModelNode} (hn : b.model.nodes[k]? = some n) :
    b'.model.nodes[k]? = some n := by
  obtain ⟨rest, hrest⟩ := h.nodes
  rw [← hrest, List.getElem?_append_left (List.getElem?_eq_some_iff.mp hn).1, hn]

theorem grows_report (b : Builder) (problems : List Problem) : Grows b (b.report problems) :=
  ⟨List.prefix_rfl, fun _ _ h => h, List.prefix_append ..⟩

/-! ## One statement -/

/-- Take a statement, but do not bind its name. The answer is the index of its node, if one was
added. -/
def place (b : Builder) (index : Nat) (s : Statement) : Option Nat × Builder :=
  let (node, described) := match s.op? with
    | .ok op => (some (Node.make (s.nodeName index) op), s.ignored op)
    | .error problem => (none, [problem])
  let (refs, unresolved) := resolve b.names s.operands
  let b := b.report (described ++ unresolved)
  match node, refs with
  | some node, some refs => b.addNode s node refs
  | _, _ => (none, b)

theorem statement_of_result {name : Ident} (h : s.result = some name) :
    b.statement index s = (b.place index s).2.bind name (b.place index s).1 := by
  simp only [statement, h]
  rfl

theorem statement_of_no_result (h : s.result = none) :
    b.statement index s = (b.place index s).2 := by
  simp only [statement, h]
  rfl

/-- The builder after a statement added its node, before its name is bound. -/
structure Placed (b : Builder) (index : Nat) (s : Statement) (op : Op) (refs : List OutputRef)
    (b' : Builder) : Prop where
  described : s.op? = .ok op
  resolved : List.Forall₂ (Denotes b.names) s.operands refs
  model : b.model.add? (Node.make (s.nodeName index) op) refs = .ok b'.model

theorem addNode_cases (b : Builder) (s : Statement) (node : Node) (refs : List OutputRef) :
    (∃ b', b.addNode s node refs = (some b.model.nodes.length, b') ∧ b'.names = b.names ∧
      b.problems <+: b'.problems ∧ b.model.add? node refs = .ok b'.model) ∨
    ∃ p, b.addNode s node refs = (none, b.report [p]) ∧ p.IsError := by
  unfold addNode
  cases hadd : b.model.add? node refs with
  | error err => exact .inr ⟨_, rfl, isError_refusal s err⟩
  | ok model => exact .inl ⟨_, rfl, rfl, List.prefix_append .., rfl⟩

/-- A statement adds its node, or it leaves the model alone: then an error is reported, or one of
its operands is bound to a failure. -/
theorem place_cases (b : Builder) (index : Nat) (s : Statement) :
    ∃ b', b'.names = b.names ∧ b.problems <+: b'.problems ∧
      ((∃ op refs, b.place index s = (some b.model.nodes.length, b') ∧
        Placed b index s op refs b') ∨
      (b.place index s = (none, b') ∧ b'.model = b.model ∧
        (b'.Failing ∨ ∃ o ∈ s.operands, Poisoned b.names o))) := by
  unfold place
  cases hop : s.op? with
  | error p =>
    refine ⟨b.report ([p] ++ (resolve b.names s.operands).2), rfl, List.prefix_append .., .inr
      ⟨rfl, rfl, .inl ⟨p, ?_, s.failsWithError_op? p hop⟩⟩⟩
    exact List.mem_append_right _ List.mem_cons_self
  | ok op =>
    rcases resolve_cases b.names s.operands with ⟨refs, hrefs, hall⟩ | ⟨hnone, hwhy⟩
    · simp only [hrefs]
      rcases addNode_cases (b.report (s.ignored op ++ [])) s (Node.make (s.nodeName index) op) refs
        with ⟨b', heq, hnames, hproblems, hadd⟩ | ⟨p, heq, herror⟩
      · exact ⟨b', hnames, (List.prefix_append ..).trans hproblems, .inl ⟨op, refs, heq,
          ⟨hop, hall, hadd⟩⟩⟩
      · refine ⟨(b.report (s.ignored op ++ [])).report [p], rfl,
          (List.prefix_append ..).trans (List.prefix_append ..),
          .inr ⟨heq, rfl, .inl ⟨p, ?_, herror⟩⟩⟩
        exact List.mem_append_right _ List.mem_cons_self
    · refine ⟨b.report (s.ignored op ++ (resolve b.names s.operands).2), rfl,
        List.prefix_append .., .inr ⟨?_, rfl, hwhy.imp_left ?_⟩⟩
      · simp only [hnone]
      · exact fun ⟨p, hp, herror⟩ =>
          ⟨p, List.mem_append_right _ (List.mem_append_right _ hp), herror⟩

/-- What a name is bound to by a statement whose node was added at an index, or not at all. -/
def bindingOf (name : Ident) : Option Nat → Binding
  | some index => .node index name.span
  | none => .failed name.span

/-- A name is bound, unless it is bound already; then there is an error. -/
theorem bind_cases (b : Builder) (name : Ident) (added : Option Nat) :
    (b.names.lookup name.name = none ∧
      b.bind name added = { b with names := (name.name, bindingOf name added) :: b.names }) ∨
    ∃ first, b.names.lookup name.name = some first ∧
      b.bind name added = b.report [.definedTwice name first.span] := by
  unfold bind
  cases hlookup : b.names.lookup name.name with
  | some first => exact .inr ⟨first, rfl, rfl⟩
  | none => cases added <;> exact .inl ⟨rfl, rfl⟩

theorem lookup_bind_self {name : Ident} (h : b.names.lookup name.name = none)
    (added : Option Nat) :
    (b.bind name added).names.lookup name.name = some (bindingOf name added) := by
  rcases b.bind_cases name added with ⟨-, heq⟩ | ⟨first, hlookup, -⟩
  · rw [heq, List.lookup_cons, beq_self_eq_true]
  · rw [h] at hlookup
    cases hlookup

theorem lookup_bind {name : Ident} {added : Option Nat} {other : String} {binding : Binding}
    (h : (b.bind name added).names.lookup other = some binding) :
    b.names.lookup other = some binding ∨ name.name = other := by
  rcases b.bind_cases name added with ⟨-, heq⟩ | ⟨first, -, heq⟩
  · rw [heq, List.lookup_cons] at h
    split at h
    next hsame => exact .inr (beq_iff_eq.mp hsame).symm
    next => exact .inl h
  · rw [heq] at h
    exact .inl h

theorem names_place (b : Builder) (index : Nat) (s : Statement) :
    (b.place index s).2.names = b.names := by
  obtain ⟨b', hnames, -, ⟨op, refs, heq, -⟩ | ⟨heq, -⟩⟩ := b.place_cases index s
  · rw [heq, hnames]
  · rw [heq, hnames]

/-- What a statement binds, it binds to the name of its result. -/
theorem lookup_statement {name : String} {binding : Binding}
    (h : (b.statement index s).names.lookup name = some binding) :
    b.names.lookup name = some binding ∨ ∃ result, s.result = some result ∧ result.name = name := by
  cases hresult : s.result with
  | none =>
    rw [statement_of_no_result hresult, names_place] at h
    exact .inl h
  | some result =>
    rw [statement_of_result hresult] at h
    rcases lookup_bind h with h | hname
    · rw [names_place] at h
      exact .inl h
    · exact .inr ⟨result, rfl, hname⟩

theorem model_bind (b : Builder) (name : Ident) (added : Option Nat) :
    (b.bind name added).model = b.model := by
  rcases b.bind_cases name added with ⟨-, heq⟩ | ⟨first, -, heq⟩
  · rw [heq]
  · rw [heq]
    rfl

theorem grows_bind (b : Builder) (name : Ident) (added : Option Nat) :
    Grows b (b.bind name added) := by
  rcases b.bind_cases name added with ⟨hnone, heq⟩ | ⟨first, -, heq⟩
  · rw [heq]
    refine ⟨List.prefix_rfl, fun other binding hlookup => ?_, List.prefix_rfl⟩
    have hne : other ≠ name.name := by
      rintro rfl
      rw [hnone] at hlookup
      cases hlookup
    rw [List.lookup_cons, beq_eq_false_iff_ne.mpr hne]
    exact hlookup
  · rw [heq]
    exact grows_report b _

theorem grows_place (b : Builder) (index : Nat) (s : Statement) :
    Grows b (b.place index s).2 := by
  have hnames : ∀ name binding, b.names.lookup name = some binding →
      (b.place index s).2.names.lookup name = some binding := by
    intro name binding hlookup
    rw [names_place, hlookup]
  obtain ⟨b', -, hproblems, ⟨op, refs, heq, hplaced⟩ | ⟨heq, hmodel, -⟩⟩ := b.place_cases index s
  · obtain ⟨-, -, hadded⟩ := Model.add?_eq_ok_iff.mp hplaced.model
    rw [heq] at hnames ⊢
    exact ⟨by rw [hadded]; exact List.prefix_append .., hnames, hproblems⟩
  · rw [heq] at hnames ⊢
    exact ⟨by simp only [hmodel, List.prefix_rfl], hnames, hproblems⟩

theorem model_statement (b : Builder) (index : Nat) (s : Statement) :
    (b.statement index s).model = (b.place index s).2.model := by
  cases hresult : s.result with
  | none => rw [statement_of_no_result hresult]
  | some name => rw [statement_of_result hresult, model_bind]

theorem grows_place_statement (b : Builder) (index : Nat) (s : Statement) :
    Grows (b.place index s).2 (b.statement index s) := by
  cases hresult : s.result with
  | none =>
    rw [statement_of_no_result hresult]
    exact .refl _
  | some name =>
    rw [statement_of_result hresult]
    exact grows_bind ..

theorem grows_statement (b : Builder) (index : Nat) (s : Statement) :
    Grows b (b.statement index s) :=
  (b.grows_place index s).trans (b.grows_place_statement index s)

/-! ## Sound builders -/

/-- The model is well-formed, names are bound to nodes that exist, and for every name that is bound
to a failure there is an error. -/
structure Sound (b : Builder) : Prop where
  wellFormed : b.model.WellFormed
  indices : ∀ name index span, b.names.lookup name = some (.node index span) →
    index < b.model.nodes.length
  failures : ∀ name span, b.names.lookup name = some (.failed span) → b.Failing

theorem sound_initial : Sound initial where
  wellFormed := Model.wellFormed_empty
  indices name index span h := by cases h
  failures name span h := by cases h

/-- A name can be bound to a node that is there, and to a failure that was reported. -/
theorem Sound.bind (h : Sound b) (name : Ident) {added : Option Nat}
    (hnode : ∀ index, added = some index → index < b.model.nodes.length)
    (hnone : added = none → b.Failing) : Sound (b.bind name added) := by
  rcases b.bind_cases name added with ⟨-, heq⟩ | ⟨first, -, heq⟩
  · rw [heq]
    refine ⟨h.wellFormed, fun other index span hlookup => ?_, fun other span hlookup => ?_⟩ <;>
      rw [List.lookup_cons] at hlookup <;> split at hlookup
    · cases added with
      | none => cases hlookup
      | some i =>
        cases hlookup
        exact hnode _ rfl
    · exact h.indices other index span hlookup
    · cases added with
      | none => exact hnone rfl
      | some i => cases hlookup
    · exact h.failures other span hlookup
  · rw [heq]
    exact ⟨h.wellFormed, h.indices,
      fun other span hlookup => (grows_report b _).failing (h.failures other span hlookup)⟩

/-- Taking a statement leaves the builder sound, and if no node is added there is an error. -/
theorem Sound.place (h : Sound b) (index : Nat) (s : Statement) :
    Sound (b.place index s).2 ∧
      (∀ i, (b.place index s).1 = some i → i < (b.place index s).2.model.nodes.length) ∧
      ((b.place index s).1 = none → (b.place index s).2.Failing) := by
  have hgrows := b.grows_place index s
  obtain ⟨b', hnames, -, ⟨op, refs, heq, hplaced⟩ | ⟨heq, hmodel, hwhy⟩⟩ := b.place_cases index s
  · obtain ⟨-, -, hadded⟩ := Model.add?_eq_ok_iff.mp hplaced.model
    have hlength : b'.model.nodes.length = b.model.nodes.length + 1 := by simp [hadded]
    rw [heq] at hgrows ⊢
    refine ⟨⟨h.wellFormed.add? hplaced.model, fun name i span hlookup => ?_,
      fun name span hlookup => ?_⟩, fun i hi => ?_, fun hnone => by cases hnone⟩
    · rw [hnames] at hlookup
      rw [hlength]
      exact Nat.lt_succ_of_lt (h.indices name i span hlookup)
    · rw [hnames] at hlookup
      exact hgrows.failing (h.failures name span hlookup)
    · obtain rfl := Option.some.inj hi
      rw [hlength]
      exact Nat.lt_succ_self _
  · rw [heq] at hgrows ⊢
    have hfailing : b'.Failing := by
      rcases hwhy with hfailing | ⟨o, -, span, hlookup⟩
      · exact hfailing
      · exact hgrows.failing (h.failures _ span hlookup)
    refine ⟨⟨hmodel ▸ h.wellFormed, fun name i span hlookup => ?_, fun _ _ _ => hfailing⟩,
      fun i hi => (by cases hi), fun _ => hfailing⟩
    rw [hnames] at hlookup
    rw [hmodel]
    exact h.indices name i span hlookup

theorem Sound.statement (h : Sound b) (index : Nat) (s : Statement) :
    Sound (b.statement index s) := by
  obtain ⟨hsound, hnode, hnone⟩ := h.place index s
  cases hresult : s.result with
  | none =>
    rw [statement_of_no_result hresult]
    exact hsound
  | some name =>
    rw [statement_of_result hresult]
    exact hsound.bind name hnode hnone

/-! ## Many statements -/

theorem statements_append (b : Builder) (index : Nat) (ss ts : List Statement) :
    b.statements index (ss ++ ts) = (b.statements index ss).statements (index + ss.length) ts := by
  induction ss generalizing b index with
  | nil => rfl
  | cons s ss ih =>
    show (b.statement index s).statements (index + 1) (ss ++ ts) =
      ((b.statement index s).statements (index + 1) ss).statements _ ts
    rw [ih, List.length_cons, Nat.add_assoc, Nat.add_comm 1]

theorem grows_statements (b : Builder) (index : Nat) (ss : List Statement) :
    Grows b (b.statements index ss) := by
  induction ss generalizing b index with
  | nil => exact .refl b
  | cons s ss ih => exact (b.grows_statement index s).trans (ih _ _)

theorem Sound.statements (h : Sound b) (index : Nat) (ss : List Statement) :
    Sound (b.statements index ss) := by
  induction ss generalizing b index with
  | nil => exact h
  | cons s ss ih => exact ih (h.statement index s) _

end Builder

/-! ## Programs -/

namespace Program

open Builder

variable {p : Program} {i k node : Nat} {s : Statement}

/-- The builder when it comes to the statement at a position. -/
def builderAt (p : Program) (k : Nat) : Builder := initial.statements 0 (p.statements.take k)

/-- The index of the node that the statement at a position adds. -/
def nodeOf? (p : Program) (k : Nat) : Option Nat :=
  p.statements[k]? >>= fun s => ((p.builderAt k).place k s).1

theorem sound_builderAt (p : Program) (k : Nat) : Sound (p.builderAt k) :=
  sound_initial.statements 0 _

theorem builderAt_succ (hs : p.statements[k]? = some s) :
    p.builderAt (k + 1) = (p.builderAt k).statement k s := by
  have hlength : (p.statements.take k).length = k :=
    List.length_take_of_le (Nat.le_of_lt (List.getElem?_eq_some_iff.mp hs).1)
  rw [builderAt, List.take_add_one, hs, Option.toList_some, statements_append, hlength,
    Nat.zero_add]
  rfl

theorem grows_builderAt (p : Program) (h : i ≤ k) : Grows (p.builderAt i) (p.builderAt k) := by
  have hprefix : p.statements.take i <+: p.statements.take k := List.take_prefix_take_left h
  obtain ⟨rest, hrest⟩ := hprefix
  rw [builderAt, builderAt, ← hrest, statements_append]
  exact grows_statements ..

theorem model_eq (p : Program) : p.model =
    ⟨(p.builderAt p.statements.length).model, (p.builderAt p.statements.length).problems⟩ := by
  rw [builderAt, List.take_length]
  rfl

/-- The model of any program is well-formed, also if there are errors. -/
theorem wellFormed_model (p : Program) : p.model.model.WellFormed := by
  rw [model_eq]
  exact (p.sound_builderAt _).wellFormed

theorem nodeOf?_eq (hs : p.statements[k]? = some s) :
    p.nodeOf? k = ((p.builderAt k).place k s).1 := by
  rw [nodeOf?, hs]
  rfl

/-- The node of a statement stands in the model under the index it has been given. -/
theorem built (hs : p.statements[k]? = some s) (hnode : p.nodeOf? k = some node) :
    ∃ op refs, s.op? = .ok op ∧ List.Forall₂ (Denotes (p.builderAt k).names) s.operands refs ∧
      p.model.model.nodes[node]? = some ⟨Node.make (s.nodeName k) op, refs⟩ := by
  have hk : k < p.statements.length := (List.getElem?_eq_some_iff.mp hs).1
  rw [nodeOf?_eq hs] at hnode
  obtain ⟨b', -, -, ⟨op, refs, heq, hplaced⟩ | ⟨heq, -⟩⟩ := (p.builderAt k).place_cases k s
  · rw [heq] at hnode
    obtain rfl := Option.some.inj hnode
    obtain ⟨-, -, hadded⟩ := Model.add?_eq_ok_iff.mp hplaced.model
    refine ⟨op, refs, hplaced.described, hplaced.resolved, ?_⟩
    rw [model_eq]
    apply (p.grows_builderAt hk).node
    rw [builderAt_succ hs, model_statement, heq]
    simp [hadded]
  · rw [heq] at hnode
    cases hnode

/-- The names that are bound before a statement are names of results of earlier ones. -/
theorem exists_result_of_lookup {name : String} {binding : Binding}
    (hk : k ≤ p.statements.length) (h : (p.builderAt k).names.lookup name = some binding) :
    ∃ j t result, j < k ∧ p.statements[j]? = some t ∧ t.result = some result ∧
      result.name = name := by
  induction k with
  | zero => cases h
  | succ k ih =>
    obtain ⟨s, hs⟩ : ∃ s, p.statements[k]? = some s := ⟨_, List.getElem?_eq_getElem hk⟩
    rw [builderAt_succ hs] at h
    rcases lookup_statement h with h | ⟨result, hresult, hname⟩
    · obtain ⟨j, t, result, hj, ht⟩ := ih (Nat.le_of_succ_le hk) h
      exact ⟨j, t, result, Nat.lt_succ_of_lt hj, ht⟩
    · exact ⟨k, s, result, Nat.lt_succ_self k, hs, hresult, hname⟩

/-- The first statement that binds a name binds it for all later ones. -/
theorem lookup_of_first {result : Ident} (hs : p.statements[k]? = some s)
    (hresult : s.result = some result) (hnode : p.nodeOf? k = some node)
    (hfirst : ∀ j t earlier, j < k → p.statements[j]? = some t → t.result = some earlier →
      earlier.name ≠ result.name) {j : Nat} (hj : k < j) :
    (p.builderAt j).names.lookup result.name = some (.node node result.span) := by
  refine (p.grows_builderAt hj).names _ _ ?_
  have hunbound : (p.builderAt k).names.lookup result.name = none := by
    refine Option.eq_none_iff_forall_ne_some.mpr fun binding hlookup => ?_
    obtain ⟨j, t, earlier, hj, ht, hearlier, hname⟩ :=
      exists_result_of_lookup (Nat.le_of_lt (List.getElem?_eq_some_iff.mp hs).1) hlookup
    exact hfirst j t earlier hj ht hearlier hname
  rw [nodeOf?_eq hs] at hnode
  rw [builderAt_succ hs, statement_of_result hresult, lookup_bind_self, hnode]
  · rfl
  · rw [names_place, hunbound]

/-! ## Programs without errors -/

theorem failing_iff (p : Program) : (p.builderAt p.statements.length).Failing ↔
    Diagnostic.anyError p.model.diagnostics = true := by
  simp [Failing, Problem.IsError, Diagnostic.anyError, ModelBuild.diagnostics, model_eq]

/-- Without errors, as many nodes are added as there are statements. -/
theorem length_nodes_builderAt (hclean : Diagnostic.anyError p.model.diagnostics = false)
    (hk : k ≤ p.statements.length) : (p.builderAt k).model.nodes.length = k := by
  have hok : ¬ (p.builderAt p.statements.length).Failing := by simp [failing_iff, hclean]
  induction k with
  | zero => rfl
  | succ k ih =>
    obtain ⟨s, hs⟩ : ∃ s, p.statements[k]? = some s := ⟨_, List.getElem?_eq_getElem hk⟩
    have hlength := ih (Nat.le_of_succ_le hk)
    rw [builderAt_succ hs, model_statement]
    obtain ⟨b', -, -, ⟨op, refs, heq, hplaced⟩ | ⟨heq, -⟩⟩ := (p.builderAt k).place_cases k s
    · obtain ⟨-, -, hadded⟩ := Model.add?_eq_ok_iff.mp hplaced.model
      rw [heq]
      simp [hadded, hlength]
    · -- A statement without a node leaves an error behind, and errors are not taken back.
      have hfailing := ((p.sound_builderAt k).place k s).2.2 (by rw [heq])
      refine absurd ((p.grows_builderAt hk).failing ?_) hok
      rw [builderAt_succ hs]
      exact ((p.builderAt k).grows_place_statement k s).failing hfailing

/-- A statement has its node at its own position if before it there are as many nodes as statements,
and after it too. -/
theorem nodeOf?_of_lengths (hs : p.statements[k]? = some s)
    (hlength : (p.builderAt k).model.nodes.length = k)
    (hnext : (p.builderAt (k + 1)).model.nodes.length = k + 1) : p.nodeOf? k = some k := by
  rw [builderAt_succ hs, model_statement] at hnext
  rw [nodeOf?_eq hs]
  obtain ⟨b', -, -, ⟨op, refs, heq, -⟩ | ⟨heq, hmodel, -⟩⟩ := (p.builderAt k).place_cases k s
  · rw [heq, hlength]
  · rw [heq] at hnext
    simp only [hmodel] at hnext
    omega

/-- Without errors, every statement has its node, at its own position. -/
theorem nodeOf?_of_clean (hclean : Diagnostic.anyError p.model.diagnostics = false)
    (hs : p.statements[k]? = some s) : p.nodeOf? k = some k := by
  have hk : k < p.statements.length := (List.getElem?_eq_some_iff.mp hs).1
  exact nodeOf?_of_lengths hs (length_nodes_builderAt hclean (Nat.le_of_lt hk))
    (length_nodes_builderAt hclean hk)

end Program

end TensorIR
