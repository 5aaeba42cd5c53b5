import TensorIR.Proofs.Model.Faithful

/-!
# Errors about names

Two kinds of errors are about names alone: an operand that nobody has bound, and a name that is
bound again. Both can be told from the text of the program, without building anything
(`Program.undefinedOperands`, `Program.redefinitions`), and the reports are exactly those, in the
order of the text (`Program.name_errors_exact`). Whether a statement became a node plays no part in
it: a name counts as bound once a statement has bound it, to a node or to a failure.

What carries the proof is that the table of names always agrees with the text passed so far about
where a name was bound first (`Program.span_lookup`). The reports of one statement fall into four
parts (`Builder.problems_statement`), two of which are about names.
-/

set_option autoImplicit false

namespace TensorIR

/-! ## What the text says -/

namespace Program

/-- The identifiers that statements bind, in order. -/
def bindings (p : Program) : List Ident := p.statements.filterMap Statement.result

/-- Where a name is bound first among the statements before a position. -/
def firstBinding? (p : Program) (k : Nat) (name : String) : Option Ident :=
  (p.upTo k).bindings.find? fun id => id.name = name

/-- The operands of the statement at a position whose names no earlier statement binds. -/
def undefinedAt (p : Program) (k : Nat) : List Operand :=
  match p.statements[k]? with
  | some s => s.operands.filter fun o => o.name.name ∉ (p.upTo k).boundNames
  | none => []

/-- The name that the statement at a position binds and where it was bound first, if an earlier
statement binds it. -/
def redefinedAt (p : Program) (k : Nat) : Option (Ident × Ident) :=
  p.statements[k]?.bind fun s => s.result.bind fun name =>
    (p.firstBinding? k name.name).map fun first => (name, first)

/-- All operands that are used before their names are bound, in order. -/
def undefinedOperands (p : Program) : List Operand :=
  (List.range p.statements.length).flatMap p.undefinedAt

/-- All names that are bound again, in order, each with the place where it was bound first. -/
def redefinitions (p : Program) : List (Ident × Ident) :=
  (List.range p.statements.length).filterMap p.redefinedAt

/-- Of the statements before a position, the first that binds the name of the operand has become no
node. -/
def UsesFailure (p : Program) (k : Nat) (o : Operand) : Prop :=
  ∃ i s first, i < k ∧ p.statements[i]? = some s ∧ s.result = some first ∧
    first.name = o.name.name ∧ first.name ∉ (p.upTo i).boundNames ∧ p.nodeOf? i = none

end Program

/-- What there is to report of a statement's operation and attributes. -/
def Statement.remarks (s : Statement) : List Problem :=
  match s.op? with
  | .ok op => s.ignored op
  | .error problem => [problem]

/-- The problem is with a node that was described and whose operands are known. -/
def Problem.OfNode : Problem → Prop
  | .operandCount _ _ _ _ | .missingOutput _ _ _ _ | .unusableName _ _ => True
  | _ => False

/-- The problem is that nobody has bound a name. -/
def Problem.isUndefined (q : Problem) : Bool := q.diagnostic.code = some .undefinedValue

/-- The problem is that a name is bound again. -/
def Problem.isRedefined (q : Problem) : Bool := q.diagnostic.code = some .valueDefinedTwice

/-! ## The reports of one statement -/

namespace Builder

variable {b : Builder} {index : Nat} {s : Statement} {names : List (String × Binding)}

/-- The operands whose names are not bound. -/
def unbound (names : List (String × Binding)) (operands : List Operand) : List Operand :=
  operands.filter fun o => (names.lookup o.name.name).isNone

/-- The report that a name is bound again, if it is. -/
def rebound (names : List (String × Binding)) (result : Option Ident) : List Problem :=
  (result.bind fun name =>
    (names.lookup name.name).map fun first => .definedTwice name first.span).toList

theorem resolve_problems (names : List (String × Binding)) (operands : List Operand) :
    (resolve names operands).2 = (unbound names operands).map fun o => .undefinedValue o.name := by
  induction operands with
  | nil => rfl
  | cons o operands ih =>
    rw [resolve, unbound, List.filter_cons]
    cases hlookup : names.lookup o.name.name with
    | none => exact congrArg (.undefinedValue o.name :: ·) ih
    | some binding => cases binding <;> exact ih

/-- Operands resolve to nodes that are there. -/
theorem Sound.resolve_lt (h : Sound b) {operands : List Operand} {refs : List OutputRef}
    (hrefs : (resolve b.names operands).1 = some refs) :
    ∀ ref ∈ refs, ref.node < b.model.nodes.length := by
  rcases resolve_cases b.names operands with ⟨refs', heq, hall⟩ | ⟨hnone, -⟩
  · rw [heq] at hrefs
    obtain rfl := Option.some.inj hrefs
    intro ref href
    obtain ⟨o, -, ⟨span, hlookup⟩, -⟩ := exists_left_of_forall₂ hall href
    exact h.indices _ _ _ hlookup
  · rw [hnone] at hrefs
    cases hrefs

/-- What is reported of a node whose operands are known is that there are too many or too few of
them, that one has no such output, or that its own name is of no use. -/
theorem problems_addNode (s : Statement) (node : Node) {refs : List OutputRef}
    (hrefs : ∀ ref ∈ refs, ref.node < b.model.nodes.length) :
    ∃ ofNode, (b.addNode s node refs).2.problems = b.problems ++ ofNode ∧
      ∀ q ∈ ofNode, q.OfNode := by
  unfold addNode
  cases hadd : b.model.add? node refs with
  | ok model =>
    refine ⟨_, rfl, fun q hq => ?_⟩
    split at hq
    · obtain rfl := List.mem_singleton.mp hq
      trivial
    · cases hq
  | error err =>
    refine ⟨[refusal s err], rfl, fun q hq => ?_⟩
    obtain rfl := List.mem_singleton.mp hq
    cases err with
    | inputCount name expected got => trivial
    | portOutOfRange name producer port count => trivial
    | unknownProducer name input =>
      exact absurd hadd (Model.add?_ne_unknownProducer hrefs name input)

/-- An operand that is bound to a failure leaves the statement without operands. -/
theorem resolve_of_poisoned {operands : List Operand} (h : ∃ o ∈ operands, Poisoned names o) :
    (resolve names operands).1 = none := by
  rcases resolve_cases names operands with ⟨refs, -, hall⟩ | ⟨hnone, -⟩
  · obtain ⟨o, ho, span, hlookup⟩ := h
    obtain ⟨ref, -, ⟨span', hlookup'⟩, -⟩ := exists_right_of_forall₂ hall ho
    cases hlookup.symm.trans hlookup'
  · exact hnone

/-- The reports of a statement, its own name aside: remarks on what it describes, operands that
are not defined, and, if all of that was in order, what is wrong with its node. -/
theorem Sound.problems_place (h : Sound b) (index : Nat) (s : Statement) :
    ∃ ofNode, (b.place index s).2.problems = b.problems ++
        (s.remarks ++ ((unbound b.names s.operands).map fun o => .undefinedValue o.name) ++ ofNode) ∧
      (∀ q ∈ ofNode, q.OfNode) ∧
      ((∃ o ∈ s.operands, Poisoned b.names o) → ofNode = []) := by
  have hnothing : ∀ q ∈ ([] : List Problem), q.OfNode := by simp
  unfold Builder.place Statement.remarks
  rw [← resolve_problems]
  cases hop : s.op? with
  | error problem => exact ⟨[], by simp [report], hnothing, fun _ => rfl⟩
  | ok op =>
    cases hrefs : (resolve b.names s.operands).1 with
    | none => exact ⟨[], by simp [report, hrefs], hnothing, fun _ => rfl⟩
    | some refs =>
      obtain ⟨ofNode, hproblems, hof⟩ := problems_addNode s (Node.make (s.nodeName index) op)
        (b := b.report (s.ignored op ++ (resolve b.names s.operands).2)) (h.resolve_lt hrefs)
      refine ⟨ofNode, ?_, hof, fun hpoisoned => ?_⟩
      · simp only [hrefs]
        rw [hproblems, report, List.append_assoc]
      · rw [resolve_of_poisoned hpoisoned] at hrefs
        cases hrefs

/-- A table of names finds, after a name was bound, what it found before, and else the name. -/
theorem span_lookup_bind (b : Builder) (name : Ident) (added : Option Nat) (other : String) :
    ((b.bind name added).names.lookup other).map Binding.span =
      ((b.names.lookup other).map Binding.span).or
        (([name].find? fun id => id.name = other).map Ident.span) := by
  rcases b.bind_cases name added with ⟨hnone, heq⟩ | ⟨first, hlookup, heq⟩
  · rw [heq, List.lookup_cons]
    by_cases hsame : name.name = other
    · subst hsame
      rw [beq_self_eq_true, hnone]
      cases added <;> simp [bindingOf, Binding.span]
    · simp [beq_eq_false_iff_ne.mpr (Ne.symm hsame), hsame]
  · rw [heq]
    by_cases hsame : name.name = other
    · subst hsame
      simp [report, hlookup]
    · simp [report, hsame]

theorem span_lookup_statement (b : Builder) (index : Nat) (s : Statement) (name : String) :
    ((b.statement index s).names.lookup name).map Binding.span =
      ((b.names.lookup name).map Binding.span).or
        ((s.result.toList.find? fun id => id.name = name).map Ident.span) := by
  cases hresult : s.result with
  | none =>
    rw [statement_of_no_result hresult, names_place]
    simp
  | some id => rw [statement_of_result hresult, span_lookup_bind, names_place]; rfl

theorem problems_bind (b : Builder) (name : Ident) (added : Option Nat) :
    (b.bind name added).problems = b.problems ++ rebound b.names (some name) := by
  rcases b.bind_cases name added with ⟨hnone, heq⟩ | ⟨first, hlookup, heq⟩
  · rw [heq]
    simp [rebound, hnone]
  · rw [heq]
    simp [rebound, hlookup, report]

theorem Sound.problems_statement (h : Sound b) (index : Nat) (s : Statement) :
    ∃ ofNode, (b.statement index s).problems = b.problems ++
        (s.remarks ++ ((unbound b.names s.operands).map fun o => .undefinedValue o.name) ++ ofNode ++
          rebound b.names s.result) ∧
      (∀ q ∈ ofNode, q.OfNode) ∧
      ((∃ o ∈ s.operands, Poisoned b.names o) → ofNode = []) := by
  obtain ⟨ofNode, hproblems, hof⟩ := h.problems_place index s
  refine ⟨ofNode, ?_, hof⟩
  cases hresult : s.result with
  | none =>
    rw [statement_of_no_result hresult, hproblems]
    simp [rebound]
  | some name =>
    rw [statement_of_result hresult, problems_bind, hproblems, names_place, List.append_assoc]

end Builder

/-! ## Which reports are about names -/

namespace Problem

variable {q : Problem}

theorem OfDescription.not_named (h : q.OfDescription) :
    q.isUndefined = false ∧ q.isRedefined = false := by
  cases q <;> first | exact ⟨rfl, rfl⟩ | exact h.elim

theorem OfNode.not_named (h : q.OfNode) : q.isUndefined = false ∧ q.isRedefined = false := by
  cases q <;> first | exact ⟨rfl, rfl⟩ | exact h.elim

end Problem

theorem Statement.not_named_of_mem_remarks {s : Statement} {q : Problem} (h : q ∈ s.remarks) :
    q.isUndefined = false ∧ q.isRedefined = false := by
  unfold remarks at h
  split at h
  · obtain ⟨a, -, rfl⟩ := List.mem_map.mp h
    exact ⟨rfl, rfl⟩
  next problem hop =>
    obtain rfl := List.mem_singleton.mp h
    exact (s.failsToDescribe_op? q hop).not_named

namespace Builder

variable {b : Builder} {index : Nat} {s : Statement} {names : List (String × Binding)}

/-- Of one kind of reports, a statement adds those among its four parts. -/
theorem Sound.filter_problems_statement (h : Sound b) {kind : Problem → Bool}
    (hnode : ∀ q : Problem, q.OfNode → kind q = false) (index : Nat) (s : Statement) :
    (b.statement index s).problems.filter kind = b.problems.filter kind ++
      (s.remarks.filter kind ++
        ((unbound b.names s.operands).map fun o => .undefinedValue o.name).filter kind ++
        (rebound b.names s.result).filter kind) := by
  obtain ⟨ofNode, hproblems, hof, -⟩ := h.problems_statement index s
  have hnone : ofNode.filter kind = [] :=
    List.filter_eq_nil_iff.mpr fun q hq => by simp [hnode q (hof q hq)]
  simp only [hproblems, List.filter_append, hnone, List.append_nil]

/-- The reports of undefined operands are either all of a kind or none of them is. -/
theorem filter_unbound (kind : Problem → Bool) (operands : List Operand) (answer : Bool)
    (hkind : ∀ name, kind (.undefinedValue name) = answer) :
    ((unbound names operands).map fun o => .undefinedValue o.name).filter kind =
      if answer then (unbound names operands).map fun o => .undefinedValue o.name else [] := by
  cases answer with
  | true =>
    refine List.filter_eq_self.mpr fun q hq => ?_
    obtain ⟨o, -, rfl⟩ := List.mem_map.mp hq
    exact hkind o.name
  | false =>
    refine List.filter_eq_nil_iff.mpr fun q hq => ?_
    obtain ⟨o, -, rfl⟩ := List.mem_map.mp hq
    rw [hkind o.name]
    exact Bool.false_ne_true

theorem filter_rebound (kind : Problem → Bool) (result : Option Ident) (answer : Bool)
    (hkind : ∀ name first, kind (.definedTwice name first) = answer) :
    (rebound names result).filter kind = if answer then rebound names result else [] := by
  have hmem : ∀ q ∈ rebound names result, kind q = answer := by
    intro q hq
    simp only [rebound, Option.mem_toList, Option.bind_eq_some_iff, Option.map_eq_some_iff] at hq
    obtain ⟨name, -, first, -, rfl⟩ := hq
    exact hkind name first.span
  cases answer with
  | true => exact List.filter_eq_self.mpr hmem
  | false => exact List.filter_eq_nil_iff.mpr fun q hq => by simp [hmem q hq]

theorem filter_isUndefined_statement (h : Sound b) (index : Nat) (s : Statement) :
    (b.statement index s).problems.filter Problem.isUndefined =
      b.problems.filter Problem.isUndefined ++
        (unbound b.names s.operands).map fun o => .undefinedValue o.name := by
  have hremarks : s.remarks.filter Problem.isUndefined = [] :=
    List.filter_eq_nil_iff.mpr fun q hq => by simp [(Statement.not_named_of_mem_remarks hq).1]
  rw [h.filter_problems_statement (fun q hq => hq.not_named.1), hremarks,
    filter_unbound _ _ true (fun _ => rfl), filter_rebound _ _ false (fun _ _ => rfl)]
  simp

theorem filter_isRedefined_statement (h : Sound b) (index : Nat) (s : Statement) :
    (b.statement index s).problems.filter Problem.isRedefined =
      b.problems.filter Problem.isRedefined ++ rebound b.names s.result := by
  have hremarks : s.remarks.filter Problem.isRedefined = [] :=
    List.filter_eq_nil_iff.mpr fun q hq => by simp [(Statement.not_named_of_mem_remarks hq).2]
  rw [h.filter_problems_statement (fun q hq => hq.not_named.2), hremarks,
    filter_unbound _ _ false (fun _ => rfl), filter_rebound _ _ true (fun _ _ => rfl)]
  simp

end Builder

namespace Program

open Builder

variable {p : Program} {i k : Nat} {s : Statement}

/-! ## The table of names and the text -/

theorem bindings_upTo_succ (hs : p.statements[k]? = some s) :
    (p.upTo (k + 1)).bindings = (p.upTo k).bindings ++ s.result.toList := by
  rw [bindings, upTo, List.take_add_one, hs, Option.toList_some, List.filterMap_append]
  cases hresult : s.result with
  | none => rw [List.filterMap_cons_none hresult]; rfl
  | some name => rw [List.filterMap_cons_some hresult]; rfl

/-- The table of names knows the names that were bound so far, and where each was bound first. -/
theorem span_lookup (p : Program) (hk : k ≤ p.statements.length) (name : String) :
    ((p.builderAt k).names.lookup name).map Binding.span =
      (p.firstBinding? k name).map Ident.span := by
  induction k with
  | zero => rfl
  | succ k ih =>
    obtain ⟨s, hs⟩ : ∃ s, p.statements[k]? = some s := ⟨_, List.getElem?_eq_getElem hk⟩
    rw [builderAt_succ hs, span_lookup_statement, ih (Nat.le_of_succ_le hk), firstBinding?,
      firstBinding?, bindings_upTo_succ hs, List.find?_append, Option.map_or]

theorem boundNames_eq (p : Program) : p.boundNames = p.bindings.map Ident.name := by
  rw [boundNames, bindings, List.map_filterMap]

/-- A name is missing from the table if no statement has bound it so far. -/
theorem lookup_eq_none_iff (hk : k ≤ p.statements.length) (name : String) :
    (p.builderAt k).names.lookup name = none ↔ name ∉ (p.upTo k).boundNames := by
  rw [← Option.map_eq_none_iff, p.span_lookup hk, Option.map_eq_none_iff, firstBinding?,
    boundNames_eq, List.find?_eq_none]
  simp

theorem unbound_builderAt (hs : p.statements[k]? = some s) :
    unbound (p.builderAt k).names s.operands = p.undefinedAt k := by
  have hk : k ≤ p.statements.length := Nat.le_of_lt (List.getElem?_eq_some_iff.mp hs).1
  rw [undefinedAt, hs, unbound]
  apply List.filter_congr
  intro o _
  rw [Bool.eq_iff_iff, Option.isNone_iff_eq_none, lookup_eq_none_iff hk, decide_eq_true_iff]

theorem rebound_builderAt (hs : p.statements[k]? = some s) :
    rebound (p.builderAt k).names s.result =
      (p.redefinedAt k).toList.map fun r => .definedTwice r.1 r.2.span := by
  have hk : k ≤ p.statements.length := Nat.le_of_lt (List.getElem?_eq_some_iff.mp hs).1
  rw [redefinedAt, hs, rebound]
  cases hresult : s.result with
  | none =>
    rw [Option.bind_some, hresult]
    rfl
  | some name =>
    have hspan := p.span_lookup hk name.name
    -- Of the binding that is found, only its place goes into the report.
    have hreport : ((p.builderAt k).names.lookup name.name).map
        (fun first => Problem.definedTwice name first.span) =
        (((p.builderAt k).names.lookup name.name).map Binding.span).map (.definedTwice name) := by
      rw [Option.map_map]
      rfl
    rw [Option.bind_some, hreport, hspan, Option.bind_some, hresult, Option.bind_some]
    cases p.firstBinding? k name.name <;> rfl

/-! ## The reports of a program -/

theorem filter_isUndefined_builderAt (hk : k ≤ p.statements.length) :
    (p.builderAt k).problems.filter Problem.isUndefined =
      ((List.range k).flatMap p.undefinedAt).map fun o => .undefinedValue o.name := by
  induction k with
  | zero => rfl
  | succ k ih =>
    obtain ⟨s, hs⟩ : ∃ s, p.statements[k]? = some s := ⟨_, List.getElem?_eq_getElem hk⟩
    rw [builderAt_succ hs, filter_isUndefined_statement (p.sound_builderAt k),
      ih (Nat.le_of_succ_le hk), unbound_builderAt hs, List.range_succ, List.flatMap_append,
      List.map_append, List.flatMap_singleton]

theorem filter_isRedefined_builderAt (hk : k ≤ p.statements.length) :
    (p.builderAt k).problems.filter Problem.isRedefined =
      ((List.range k).filterMap p.redefinedAt).map fun r => .definedTwice r.1 r.2.span := by
  induction k with
  | zero => rfl
  | succ k ih =>
    obtain ⟨s, hs⟩ : ∃ s, p.statements[k]? = some s := ⟨_, List.getElem?_eq_getElem hk⟩
    rw [builderAt_succ hs, filter_isRedefined_statement (p.sound_builderAt k),
      ih (Nat.le_of_succ_le hk), rebound_builderAt hs, List.range_succ, List.filterMap_append,
      List.map_append]
    cases hredefined : p.redefinedAt k with
    | none => rw [List.filterMap_cons_none hredefined]; rfl
    | some r => rw [List.filterMap_cons_some hredefined]; rfl

/-- Operands are resolved before they are checked, so no report says that a node does not exist. -/
theorem unknownProducer_not_mem (p : Program) (node : String) (input : OutputRef) (span : Span) :
    .unknownProducer node input span ∉ p.model.problems := by
  intro hmem
  have hundefined : Problem.unknownProducer node input span ∈
      p.model.problems.filter Problem.isUndefined := List.mem_filter.mpr ⟨hmem, rfl⟩
  rw [model_eq, filter_isUndefined_builderAt (Nat.le_refl _)] at hundefined
  obtain ⟨o, -, heq⟩ := List.mem_map.mp hundefined
  cases heq

/-- A name that was bound to a failure in the first place stays so. -/
theorem UsesFailure.poisoned {o : Operand} (h : p.UsesFailure k o) :
    Poisoned (p.builderAt k).names o := by
  obtain ⟨i, s, first, hik, hs, hfirst, hname, hnew, hfailed⟩ := h
  have hi : i ≤ p.statements.length := Nat.le_of_lt (List.getElem?_eq_some_iff.mp hs).1
  refine ⟨first.span, (p.grows_builderAt hik).names _ _ ?_⟩
  rw [nodeOf?_eq hs] at hfailed
  rw [builderAt_succ hs, statement_of_result hfirst, ← hname, lookup_bind_self, hfailed]
  · rfl
  · rw [names_place]
    exact (lookup_eq_none_iff hi _).mpr hnew

/-- If an operand is bound to a failure, what is reported of the statement is what would be without
looking at this operand. -/
theorem problems_of_usesFailure (hs : p.statements[k]? = some s) {o : Operand}
    (ho : o ∈ s.operands) (h : p.UsesFailure k o) :
    (p.upTo (k + 1)).model.problems = (p.upTo k).model.problems ++
      (s.remarks ++ ((p.undefinedAt k).map fun o => .undefinedValue o.name) ++
        (p.redefinedAt k).toList.map fun r => .definedTwice r.1 r.2.span) := by
  obtain ⟨ofNode, hproblems, -, hnothing⟩ := (p.sound_builderAt k).problems_statement k s
  obtain rfl := hnothing ⟨o, ho, h.poisoned⟩
  rw [model_upTo, model_upTo, builderAt_succ hs, hproblems, unbound_builderAt hs,
    rebound_builderAt hs, List.append_nil]

/-- Errors about names are reported once each and lead to no others. Values are reported as
undefined for exactly the operands whose names no earlier statement binds, in order, each at the
operand; and as defined twice for exactly the statements that bind a name again, in order, each at
the name, with the place where the name was bound first. A statement that uses a value whose own
statement failed is not blamed for it: what is reported of it is about its operation, its
attributes, its other operands or its own name. And no report says that a node does not exist. -/
theorem name_errors_exact (p : Program) :
    p.model.diagnostics.filter (fun d => d.code = some .undefinedValue) =
      (p.undefinedOperands.map fun o =>
        { severity := .error
          code := some .undefinedValue
          span := o.name.span
          message := s!"undefined value '{o.name.name}'"
          hint := some "values must be defined before they are used" }) ∧
    p.model.diagnostics.filter (fun d => d.code = some .valueDefinedTwice) =
      (p.redefinitions.map fun r =>
        { severity := .error
          code := some .valueDefinedTwice
          span := r.1.span
          message := s!"value '{r.1.name}' is defined twice"
          related := [⟨r.2.span, "first definition"⟩] }) ∧
    (∀ k s o, p.statements[k]? = some s → o ∈ s.operands → p.UsesFailure k o →
      (p.upTo (k + 1)).model.problems = (p.upTo k).model.problems ++
        (s.remarks ++ ((p.undefinedAt k).map fun o => .undefinedValue o.name) ++
          (p.redefinedAt k).toList.map fun r => .definedTwice r.1 r.2.span)) ∧
    ∀ node input span, .unknownProducer node input span ∉ p.model.problems := by
  refine ⟨?_, ?_, fun k s o hs ho h => problems_of_usesFailure hs ho h, p.unknownProducer_not_mem⟩
  · have hproblems := p.filter_isUndefined_builderAt (Nat.le_refl _)
    rw [ModelBuild.diagnostics, List.filter_map, model_eq]
    refine (congrArg (List.map Problem.diagnostic) hproblems).trans ?_
    rw [List.map_map]
    rfl
  · have hproblems := p.filter_isRedefined_builderAt (Nat.le_refl _)
    rw [ModelBuild.diagnostics, List.filter_map, model_eq]
    refine (congrArg (List.map Problem.diagnostic) hproblems).trans ?_
    rw [List.map_map]
    rfl

end Program

end TensorIR
