import TensorIR.Proofs.Model.Building
import TensorIR.Proofs.Model.Description

/-!
# Models are faithful to their programs

A program without errors is one whose names are bound once each and whose statements all have become
nodes. Then the model is what the program says: the node of a statement has the operation that the
statement describes and reads the outputs that its operands name. And if a statement has become no
node, an error was reported by the time it was passed, whichever of the many reasons there was.

Two observations carry this. A statement whose node is added leaves nothing but warnings behind
(`Builder.not_failing_place`), so errors show themselves as missing nodes or as names bound twice.
And a model grows by one node for each statement at most, so if all are there, each stands at its
own place (`length_nodes_of_full`).
-/

set_option autoImplicit false

namespace TensorIR

/-- The node is the one that the statement at a position describes. -/
structure ModelNode.Represents (n : ModelNode) (k : Nat) (s : Statement) : Prop where
  name : n.node.name = s.nodeName k
  op : s.Describes n.node.op

/-! ## Statements that leave no error -/

theorem Statement.not_isError_ignored {s : Statement} {op : Op} {q : Problem}
    (h : q ∈ s.ignored op) : ¬ q.IsError := by
  obtain ⟨a, -, rfl⟩ := List.mem_map.mp h
  simp [Problem.IsError, Problem.diagnostic, Diagnostic.warning]

namespace Builder

variable {b : Builder} {index i : Nat} {s : Statement}

theorem not_failing_report {problems : List Problem} (hb : ¬ b.Failing)
    (h : ∀ q ∈ problems, ¬ q.IsError) : ¬ (b.report problems).Failing := by
  rintro ⟨q, hq, herror⟩
  rcases List.mem_append.mp hq with hq | hq
  · exact hb ⟨q, hq, herror⟩
  · exact h q hq herror

theorem not_failing_addNode {node : Node} {inputs : List OutputRef} (hb : ¬ b.Failing)
    (h : (b.addNode s node inputs).1 = some i) : ¬ (b.addNode s node inputs).2.Failing := by
  unfold addNode at h ⊢
  cases hadd : b.model.add? node inputs with
  | error err =>
    rw [hadd] at h
    cases h
  | ok model =>
    refine not_failing_report hb fun q hq => ?_
    split at hq
    · obtain rfl := List.mem_singleton.mp hq
      simp [Problem.IsError, Problem.diagnostic, Diagnostic.warning]
    · cases hq

/-- A statement whose node is added leaves nothing but warnings behind. -/
theorem not_failing_place (hb : ¬ b.Failing) (h : (b.place index s).1 = some i) :
    ¬ (b.place index s).2.Failing := by
  unfold place at h ⊢
  cases hop : s.op? with
  | error q =>
    simp only [hop] at h
    cases h
  | ok op =>
    rcases resolve_cases b.names s.operands with ⟨refs, hrefs, -⟩ | ⟨hnone, -⟩
    · simp only [hop, hrefs] at h ⊢
      refine not_failing_addNode (not_failing_report hb fun q hq => ?_) h
      rw [List.append_nil] at hq
      exact Statement.not_isError_ignored hq
    · simp only [hop, hnone] at h
      cases h

/-- Nor does binding a name, if it is not bound already. -/
theorem not_failing_statement (hb : ¬ b.Failing) (h : (b.place index s).1 = some i)
    (hfresh : ∀ name, s.result = some name → b.names.lookup name.name = none) :
    ¬ (b.statement index s).Failing := by
  have hplace := not_failing_place hb h
  cases hresult : s.result with
  | none => rwa [statement_of_no_result hresult]
  | some name =>
    rw [statement_of_result hresult]
    rcases (b.place index s).2.bind_cases name (b.place index s).1 with
      ⟨-, heq⟩ | ⟨first, hlookup, -⟩
    · rwa [heq]
    · rw [names_place, hfresh name hresult] at hlookup
      cases hlookup

/-- A name that is bound twice leaves an error behind. -/
theorem failing_of_bound {name : Ident} {first : Binding} (hresult : s.result = some name)
    (h : b.names.lookup name.name = some first) : (b.statement index s).Failing := by
  rw [statement_of_result hresult]
  rcases (b.place index s).2.bind_cases name (b.place index s).1 with ⟨hnone, -⟩ | ⟨found, -, heq⟩
  · rw [names_place, h] at hnone
    cases hnone
  · rw [heq]
    exact ⟨.definedTwice name found.span, List.mem_append_right _ List.mem_cons_self, rfl⟩

theorem length_nodes_statement_le (b : Builder) (index : Nat) (s : Statement) :
    (b.statement index s).model.nodes.length ≤ b.model.nodes.length + 1 := by
  rw [model_statement]
  obtain ⟨b', -, -, ⟨op, refs, heq, hplaced⟩ | ⟨heq, hmodel, -⟩⟩ := b.place_cases index s
  · obtain ⟨-, -, hadded⟩ := Model.add?_eq_ok_iff.mp hplaced.model
    rw [heq]
    simp [hadded]
  · rw [heq]
    simp [hmodel]

end Builder

namespace Program

open Builder

variable {p : Program} {i j k : Nat} {s : Statement} {name : String} {o : Operand} {ref : OutputRef}

/-! ## The names of a program -/

/-- The statement at the position binds the name. -/
def Binds (p : Program) (k : Nat) (name : String) : Prop :=
  ∃ s id, p.statements[k]? = some s ∧ s.result = some id ∧ id.name = name

/-- The names that statements bind, in order. -/
def boundNames (p : Program) : List String :=
  p.statements.filterMap fun s => s.result.map Ident.name

theorem nodup_boundNames_iff :
    p.boundNames.Nodup ↔ ∀ i j name, i < j → p.Binds i name → ¬ p.Binds j name := by
  unfold boundNames List.Nodup
  rw [List.pairwise_filterMap, List.pairwise_iff_getElem]
  constructor
  · rintro h i j name hij ⟨s, id, hs, hid, rfl⟩ ⟨t, id', ht, hid', hname⟩
    obtain ⟨hi, rfl⟩ := List.getElem?_eq_some_iff.mp hs
    obtain ⟨hj, rfl⟩ := List.getElem?_eq_some_iff.mp ht
    exact h i j hi hj hij id.name (by rw [hid]; rfl) id'.name (by rw [hid']; rfl) hname.symm
  · intro h i j hi hj hij name hname name' hname' heq
    obtain ⟨id, hid, rfl⟩ := Option.map_eq_some_iff.mp hname
    obtain ⟨id', hid', rfl⟩ := Option.map_eq_some_iff.mp hname'
    exact h i j id.name hij ⟨_, id, List.getElem?_eq_getElem hi, hid, rfl⟩
      ⟨_, id', List.getElem?_eq_getElem hj, hid', heq.symm⟩

/-- If names are bound once each, one statement at most binds a name. -/
theorem Binds.unique (hnodup : p.boundNames.Nodup) (hi : p.Binds i name) (hj : p.Binds j name) :
    i = j := by
  rcases Nat.lt_trichotomy i j with hij | heq | hij
  · exact absurd hj (nodup_boundNames_iff.mp hnodup i j name hij hi)
  · exact heq
  · exact absurd hi (nodup_boundNames_iff.mp hnodup j i name hij hj)

/-- What an earlier statement binds is bound, to its node or to a failure, its own or another's. -/
theorem exists_lookup_of_binds (hi : p.Binds i name) (hik : i < k) :
    ∃ binding, (p.builderAt k).names.lookup name = some binding := by
  obtain ⟨s, id, hs, hid, rfl⟩ := hi
  suffices h : ∃ binding, (p.builderAt (i + 1)).names.lookup id.name = some binding by
    obtain ⟨binding, h⟩ := h
    exact ⟨binding, (p.grows_builderAt hik).names _ _ h⟩
  rw [builderAt_succ hs]
  cases hlookup : (p.builderAt i).names.lookup id.name with
  | some binding => exact ⟨binding, (grows_statement ..).names _ _ hlookup⟩
  | none =>
    rw [statement_of_result hid]
    exact ⟨_, lookup_bind_self (by rw [names_place, hlookup]) _⟩

/-! ## Programs cut short -/

/-- The first statements of a program. -/
def upTo (p : Program) (k : Nat) : Program := { p with statements := p.statements.take k }

theorem model_upTo (p : Program) (k : Nat) :
    (p.upTo k).model = ⟨(p.builderAt k).model, (p.builderAt k).problems⟩ := rfl

theorem upTo_length (p : Program) : p.upTo p.statements.length = p := by
  rw [upTo, List.take_length]

/-- What is added and reported for some statements stays, whatever follows them. -/
theorem grows_upTo (p : Program) (h : i ≤ k) :
    (p.upTo i).model.model.nodes <+: (p.upTo k).model.model.nodes ∧
      (p.upTo i).model.diagnostics <+: (p.upTo k).model.diagnostics := by
  have hgrows := p.grows_builderAt h
  exact ⟨hgrows.nodes, hgrows.problems.map _⟩

theorem failing_builderAt_iff :
    (p.builderAt k).Failing ↔ Diagnostic.anyError (p.upTo k).model.diagnostics = true := by
  simp [Failing, Problem.IsError, Diagnostic.anyError, ModelBuild.diagnostics, model_upTo]

/-- A statement becomes a node, or there is an error by the time it has been passed. -/
theorem node_or_error (hs : p.statements[k]? = some s) :
    (∃ n, (p.upTo (k + 1)).model.model.nodes = (p.upTo k).model.model.nodes ++ [n] ∧
      n.Represents k s) ∨
    ((p.upTo (k + 1)).model.model.nodes = (p.upTo k).model.model.nodes ∧
      Diagnostic.anyError (p.upTo (k + 1)).model.diagnostics = true) := by
  rw [← failing_builderAt_iff]
  simp only [model_upTo]
  rw [builderAt_succ hs, model_statement]
  obtain ⟨b', -, -, ⟨op, refs, heq, hplaced⟩ | ⟨heq, hmodel, -⟩⟩ := (p.builderAt k).place_cases k s
  · obtain ⟨-, -, hadded⟩ := Model.add?_eq_ok_iff.mp hplaced.model
    exact .inl ⟨_, by rw [heq, hadded], rfl, Statement.op?_eq_ok_iff.mp hplaced.described⟩
  · have hfailing := ((p.sound_builderAt k).place k s).2.2 (by rw [heq])
    refine .inr ⟨by rw [heq, hmodel], ?_⟩
    exact ((p.builderAt k).grows_place_statement k s).failing hfailing

/-! ## Complete models -/

/-- The nodes are those of the statements, one for each and in their order. -/
structure OneEach (p : Program) (nodes : List ModelNode) : Prop where
  length : nodes.length = p.statements.length
  represents : ∀ k s (n : ModelNode), p.statements[k]? = some s → nodes[k]? = some n →
    n.Represents k s

theorem length_nodes_builderAt_le (p : Program) (k : Nat) (n : Nat)
    (hn : k + n ≤ p.statements.length) :
    (p.builderAt (k + n)).model.nodes.length ≤ (p.builderAt k).model.nodes.length + n := by
  induction n with
  | zero => exact Nat.le_refl _
  | succ n ih =>
    obtain ⟨s, hs⟩ : ∃ s, p.statements[k + n]? = some s := ⟨_, List.getElem?_eq_getElem (by omega)⟩
    rw [← Nat.add_assoc, builderAt_succ hs]
    have hstep := (p.builderAt (k + n)).length_nodes_statement_le (k + n) s
    have hrest := ih (by omega)
    omega

/-- If there are as many nodes as statements in the end, there were all along: nodes come one by
one. -/
theorem length_nodes_of_full (h : p.model.model.nodes.length = p.statements.length)
    (hk : k ≤ p.statements.length) : (p.builderAt k).model.nodes.length = k := by
  have hbefore := p.length_nodes_builderAt_le 0 k (by omega)
  have hafter := p.length_nodes_builderAt_le k (p.statements.length - k) (by omega)
  have hzero : (p.builderAt 0).model.nodes.length = 0 := rfl
  rw [model_eq] at h
  rw [Nat.add_sub_cancel' hk, h] at hafter
  rw [Nat.zero_add, hzero] at hbefore
  omega

/-- The program has no errors if its names are bound once each and its statements all have nodes. -/
theorem clean_of_full (hnodup : p.boundNames.Nodup)
    (hlength : p.model.model.nodes.length = p.statements.length) :
    Diagnostic.anyError p.model.diagnostics = false := by
  have hok : ∀ k, k ≤ p.statements.length → ¬ (p.builderAt k).Failing := by
    intro k hk
    induction k with
    | zero =>
      rintro ⟨q, hq, -⟩
      cases hq
    | succ k ih =>
      obtain ⟨s, hs⟩ : ∃ s, p.statements[k]? = some s := ⟨_, List.getElem?_eq_getElem hk⟩
      have hnode := nodeOf?_of_lengths hs (length_nodes_of_full hlength (Nat.le_of_lt hk))
        (length_nodes_of_full hlength hk)
      rw [nodeOf?_eq hs] at hnode
      rw [builderAt_succ hs]
      refine not_failing_statement (ih (Nat.le_of_lt hk)) hnode fun id hid => ?_
      refine Option.eq_none_iff_forall_ne_some.mpr fun binding hlookup => ?_
      obtain ⟨j, t, earlier, hj, ht, hearlier, hname⟩ :=
        exists_result_of_lookup (Nat.le_of_lt hk) hlookup
      exact nodup_boundNames_iff.mp hnodup j k id.name hj ⟨t, earlier, ht, hearlier, hname⟩
        ⟨s, id, hs, hid, rfl⟩
  have hend := hok _ (Nat.le_refl _)
  rw [failing_iff] at hend
  exact Bool.eq_false_iff.mpr hend

/-! ## Programs without errors -/

theorem nodup_of_clean (hclean : Diagnostic.anyError p.model.diagnostics = false) :
    p.boundNames.Nodup := by
  rw [nodup_boundNames_iff]
  intro i j name hij hi hj
  obtain ⟨first, hlookup⟩ := exists_lookup_of_binds hi hij
  obtain ⟨s, id, hs, hid, rfl⟩ := hj
  have hlt : j < p.statements.length := (List.getElem?_eq_some_iff.mp hs).1
  have hfailing : (p.builderAt (j + 1)).Failing := by
    rw [builderAt_succ hs]
    exact failing_of_bound hid hlookup
  have herror := failing_iff p |>.mp ((p.grows_builderAt hlt).failing hfailing)
  rw [hclean] at herror
  cases herror

/-- The operand reads an output of the only earlier statement that binds its name. -/
structure Reads (p : Program) (k : Nat) (o : Operand) (ref : OutputRef) : Prop where
  earlier : ref.node < k
  binds : p.Binds ref.node o.name.name
  only : ∀ i, i < k → p.Binds i o.name.name → i = ref.node
  port : ref.port = o.port

theorem reads_of_denotes (hclean : Diagnostic.anyError p.model.diagnostics = false)
    (hk : k ≤ p.statements.length) (h : Denotes (p.builderAt k).names o ref) : p.Reads k o ref := by
  have hnodup := nodup_of_clean hclean
  obtain ⟨⟨span, hlookup⟩, hport⟩ := h
  obtain ⟨j, t, id, hj, ht, hid, hname⟩ := exists_result_of_lookup hk hlookup
  have hbinds : p.Binds j o.name.name := ⟨t, id, ht, hid, hname⟩
  -- The lookup finds the statement that binds the name first, which is the only one.
  have hfirst := lookup_of_first ht hid (nodeOf?_of_clean hclean ht)
    (fun i u earlier hi hu hearlier heq => nodup_boundNames_iff.mp hnodup i j id.name hi
      ⟨u, earlier, hu, hearlier, heq⟩ ⟨t, id, ht, hid, rfl⟩) hj
  rw [hname, hlookup] at hfirst
  obtain ⟨hnode, -⟩ := Binding.node.inj (Option.some.inj hfirst)
  rw [← hnode] at hj hbinds
  exact ⟨hj, hbinds, fun i _ hi => Binds.unique hnodup hi hbinds, hport.symm⟩

/-- Without errors the node of a statement is what the statement describes, and reads what its
operands name. -/
theorem node_of_clean (hclean : Diagnostic.anyError p.model.diagnostics = false)
    (hs : p.statements[k]? = some s) : ∃ n, p.model.model.nodes[k]? = some n ∧
      n.Represents k s ∧ List.Forall₂ (p.Reads k) s.operands n.inputs := by
  obtain ⟨op, refs, hop, hrefs, hn⟩ := built hs (nodeOf?_of_clean hclean hs)
  have hk : k ≤ p.statements.length := Nat.le_of_lt (List.getElem?_eq_some_iff.mp hs).1
  refine ⟨_, hn, ⟨rfl, Statement.op?_eq_ok_iff.mp hop⟩, ?_⟩
  exact hrefs.imp fun o ref h => reads_of_denotes hclean hk h

theorem oneEach_of_clean (hclean : Diagnostic.anyError p.model.diagnostics = false) :
    p.OneEach p.model.model.nodes where
  length := by
    rw [model_eq]
    exact length_nodes_builderAt hclean (Nat.le_refl _)
  represents k s n hs hn := by
    obtain ⟨n', hn', h, -⟩ := node_of_clean hclean hs
    obtain rfl := Option.some.inj (hn.symm.trans hn')
    exact h

/-- Building a model is sound, complete and never silent, for every program. Nodes have their
operands, which are outputs of earlier nodes. There is no error if and only if names are bound once
each and there is one node for each statement, in order. Then the nodes are what the statements say.
And a statement that becomes no node has an error among the reports on the program up to it, which
stay. -/
theorem model_faithful (p : Program) :
    p.model.model.WellFormed ∧
    (Diagnostic.anyError p.model.diagnostics = false ↔
      p.boundNames.Nodup ∧ p.OneEach p.model.model.nodes) ∧
    (Diagnostic.anyError p.model.diagnostics = false → ∀ k s, p.statements[k]? = some s →
      ∃ n, p.model.model.nodes[k]? = some n ∧ n.Represents k s ∧
        List.Forall₂ (p.Reads k) s.operands n.inputs) ∧
    ∀ k s, p.statements[k]? = some s →
      ((∃ n, (p.upTo (k + 1)).model.model.nodes = (p.upTo k).model.model.nodes ++ [n] ∧
        n.Represents k s) ∨
      ((p.upTo (k + 1)).model.model.nodes = (p.upTo k).model.model.nodes ∧
        Diagnostic.anyError (p.upTo (k + 1)).model.diagnostics = true)) ∧
      (p.upTo (k + 1)).model.model.nodes <+: p.model.model.nodes ∧
      (p.upTo (k + 1)).model.diagnostics <+: p.model.diagnostics := by
  refine ⟨p.wellFormed_model, ⟨?_, ?_⟩, ?_, ?_⟩
  · intro hclean
    exact ⟨nodup_of_clean hclean, oneEach_of_clean hclean⟩
  · rintro ⟨hnodup, heach⟩
    exact clean_of_full hnodup heach.length
  · intro hclean k s hs
    exact node_of_clean hclean hs
  · intro k s hs
    have hk : k < p.statements.length := (List.getElem?_eq_some_iff.mp hs).1
    obtain ⟨hnodes, hreports⟩ := p.grows_upTo hk
    rw [upTo_length] at hnodes hreports
    exact ⟨node_or_error hs, hnodes, hreports⟩

end Program

end TensorIR
