import Mathlib.Logic.Equiv.Basic
import TensorIR.Proofs.Body.Moving
import TensorIR.Proofs.Model.Clean
import TensorIR.Proofs.Model.Placement
import TensorIR.Proofs.Pipeline.Running

/-!
# Statements in another order

The statements of a program may be put in another order, as long as definitions stay before their
uses and parameters and results each keep their order (`Program.Reorders`). The compilation does not
depend on it (`Compilation.run_reordered`). A program without errors still has none, shape inference
goes through for both or for neither, and the shapes are the same.

With the order much else changes: where statements stand, the numbers of nodes, and the names of
those that bind none. What stays is what each statement describes and which statements it reads, so
the models are the same up to the places of their nodes (`Program.Reorders.moved`).
-/

set_option autoImplicit false

namespace TensorIR

namespace Program

/-- The second program has the statements of the first in another order, each at the place that the
permutation says. Where they stand in the source may differ too. -/
structure Reorders (p q : Program) (place : Equiv.Perm Nat) : Prop where
  same : ∀ k : Nat, (q.statements[place k]?).map Statement.unplaced =
    (p.statements[k]?).map Statement.unplaced
  /-- Definitions stay before their uses. -/
  uses : ∀ (i j : Nat) s, i < j → p.statements[j]? = some s → ∀ o ∈ s.operands,
    p.Binds i o.name.name → place i < place j
  /-- Parameters keep their order, and so do results. -/
  boundary : ∀ (i j : Nat) s t, i < j → p.statements[i]? = some s → p.statements[j]? = some t →
    s.op.name = t.op.name → s.op.name = "Parameter" ∨ s.op.name = "Result" → place i < place j

end Program

/-- The name of the operations on a side of the graph. -/
theorem Statement.Describes.op_name_of_side {s : Statement} {op : Op} {side : Direction}
    (h : s.Describes op) (hside : op.side? = some side) :
    s.op.name = if side = .input then "Parameter" else "Result" := by
  cases h with
  | parameter hop =>
    cases hside
    exact hop
  | result hop =>
    cases hside
    exact hop
  | _ => cases hside

namespace Program

variable {p q : Program} {place : Equiv.Perm Nat} {i k : Nat} {s t : Statement} {name : String}

/-! ## The other program has no errors either -/

theorem Reorders.forth (h : p.Reorders q place) (hs : p.statements[k]? = some s) :
    ∃ t, q.statements[place k]? = some t ∧ s.unplaced = t.unplaced := by
  have hsame := h.same k
  rw [hs, Option.map_some] at hsame
  obtain ⟨t, ht, heq⟩ := Option.map_eq_some_iff.mp hsame
  exact ⟨t, ht, heq.symm⟩

theorem Reorders.back (h : p.Reorders q place) (ht : q.statements[k]? = some t) :
    ∃ s, p.statements[place.symm k]? = some s ∧ s.unplaced = t.unplaced := by
  have hsame := h.same (place.symm k)
  rw [Equiv.apply_symm_apply, ht, Option.map_some] at hsame
  obtain ⟨s, hs, heq⟩ := Option.map_eq_some_iff.mp hsame.symm
  exact ⟨s, hs, heq⟩

theorem Reorders.binds_forth (h : p.Reorders q place) (hbinds : p.Binds k name) :
    q.Binds (place k) name := by
  obtain ⟨s, id, hs, hid, rfl⟩ := hbinds
  obtain ⟨t, ht, heq⟩ := h.forth hs
  obtain ⟨id', hid', hname⟩ := Statement.exists_result_of_unplaced heq hid
  exact ⟨t, id', ht, hid', hname⟩

theorem Reorders.binds_back (h : p.Reorders q place) (hbinds : q.Binds k name) :
    p.Binds (place.symm k) name := by
  obtain ⟨t, id, ht, hid, rfl⟩ := hbinds
  obtain ⟨s, hs, heq⟩ := h.back ht
  obtain ⟨id', hid', hname⟩ := Statement.exists_result_of_unplaced heq.symm hid
  exact ⟨s, id', hs, hid', hname⟩

theorem Reorders.nodup (h : p.Reorders q place) (hnodup : p.boundNames.Nodup) :
    q.boundNames.Nodup := by
  refine nodup_boundNames_iff.mpr fun i j name hij hi hj => Nat.ne_of_lt hij ?_
  exact place.symm.injective (Binds.unique hnodup (h.binds_back hi) (h.binds_back hj))

/-- A statement that makes sense where it stands makes sense in its new place. -/
theorem Reorders.fits (h : p.Reorders q place) (hs : p.statements[k]? = some s)
    (heq : s.unplaced = t.unplaced) (hfits : p.Fits k s) : q.Fits (place k) t := by
  obtain ⟨op, hop, harity, hoperands⟩ := hfits
  refine ⟨op, hop.of_unplaced heq, (Statement.length_operands_of_unplaced heq).trans harity,
    fun o ho => ?_⟩
  obtain ⟨o', ho', hname, hport⟩ := Statement.exists_operand_of_unplaced heq ho
  obtain ⟨i, u, op', hik, hbinds, hu, hop', houtput⟩ := hoperands o' ho'
  obtain ⟨u', hu', heq'⟩ := h.forth hu
  exact ⟨place i, u', op', h.uses i k s hik hs o' ho' hbinds, hname ▸ h.binds_forth hbinds, hu',
    hop'.of_unplaced heq', hport ▸ houtput⟩

theorem Reorders.clean (h : p.Reorders q place)
    (hclean : Diagnostic.anyError p.model.diagnostics = false) :
    Diagnostic.anyError q.model.diagnostics = false := by
  obtain ⟨hnodup, hfits⟩ := p.clean_iff.mp hclean
  refine q.clean_iff.mpr ⟨h.nodup hnodup, fun k t ht => ?_⟩
  obtain ⟨s, hs, heq⟩ := h.back ht
  have hmoved := h.fits hs heq (hfits _ s hs)
  rwa [Equiv.apply_symm_apply] at hmoved

/-! ## The other model -/

/-- The node of a statement in a program without errors. -/
theorem exists_make_of_clean (hclean : Diagnostic.anyError p.model.diagnostics = false)
    (hs : p.statements[k]? = some s) :
    ∃ op refs, p.model.model.nodes[k]? = some ⟨Node.make (s.nodeName k) op, refs⟩ ∧
      s.Describes op ∧ List.Forall₂ (p.Reads k) s.operands refs := by
  obtain ⟨op, refs, hop, -, hn⟩ := built hs (nodeOf?_of_clean hclean hs)
  obtain ⟨n, hn', -, hreads⟩ := node_of_clean hclean hs
  obtain rfl := Option.some.inj (hn.symm.trans hn')
  exact ⟨op, refs, hn, Statement.op?_eq_ok_iff.mp hop, hreads⟩

theorem exists_statement_of_node {n : ModelNode}
    (hclean : Diagnostic.anyError p.model.diagnostics = false)
    (hn : p.model.model.nodes[k]? = some n) : ∃ s, p.statements[k]? = some s := by
  have hk := (List.getElem?_eq_some_iff.mp hn).1
  rw [(oneEach_of_clean hclean).length] at hk
  exact ⟨_, List.getElem?_eq_getElem hk⟩

theorem op_name_of_standsOn {side : Direction}
    (hclean : Diagnostic.anyError p.model.diagnostics = false)
    (hstands : Model.standsOn p.model.model.nodes side k = true) :
    ∃ s, p.statements[k]? = some s ∧
      s.op.name = if side = .input then "Parameter" else "Result" := by
  obtain ⟨n, hn⟩ : ∃ n, p.model.model.nodes[k]? = some n :=
    ⟨_, List.getElem?_eq_getElem (Model.lt_of_standsOn hstands)⟩
  obtain ⟨s, hs⟩ := exists_statement_of_node hclean hn
  obtain ⟨op, refs, hn', hop, -⟩ := exists_make_of_clean hclean hs
  obtain rfl := Option.some.inj (hn.symm.trans hn')
  exact ⟨s, hs, hop.op_name_of_side ((Model.standsOn_iff hn).mp hstands)⟩

theorem Reads.unique {o : Operand} {ref ref' : OutputRef} (h : p.Reads k o ref)
    (h' : p.Reads k o ref') : ref = ref' := by
  obtain ⟨node, port⟩ := ref
  obtain ⟨node', port'⟩ := ref'
  obtain rfl : node' = node := h.only _ h'.earlier h'.binds
  obtain rfl : port = port' := h.port.trans h'.port.symm
  rfl

theorem Reads.unplaced {o : Operand} {ref : OutputRef} (h : p.Reads k o ref) :
    p.Reads k o.unplaced ref :=
  ⟨h.earlier, h.binds, h.only, h.port⟩

/-- What an operand reads has moved with the statement that it names. -/
theorem Reorders.reads (h : p.Reorders q place) (hnodup : q.boundNames.Nodup)
    (hs : p.statements[k]? = some s) {o : Operand} (ho : o ∈ s.operands) {ref : OutputRef}
    (hread : p.Reads k o ref) : q.Reads (place k) o (Model.moveRef place ref) where
  earlier := h.uses ref.node k s hread.earlier hs o ho hread.binds
  binds := h.binds_forth hread.binds
  only _ _ hbinds := Binds.unique hnodup hbinds (h.binds_forth hread.binds)
  port := hread.port

theorem Reorders.refs_eq (h : p.Reorders q place) (hnodup : q.boundNames.Nodup)
    (hs : p.statements[k]? = some s) (heq : s.unplaced = t.unplaced) {refs refs' : List OutputRef}
    (hreads : List.Forall₂ (p.Reads k) s.operands refs)
    (hreads' : List.Forall₂ (q.Reads (place k)) t.operands refs') :
    refs' = refs.map (Model.moveRef place) := by
  have hmoved : List.Forall₂ (q.Reads (place k)) (s.operands.map Operand.unplaced)
      (refs.map (Model.moveRef place)) := by
    rw [List.forall₂_map_left_iff, List.forall₂_map_right_iff]
    exact forall₂_imp_of_mem hreads fun o ho ref _ hread => (h.reads hnodup hs ho hread).unplaced
  have hthere : List.Forall₂ (q.Reads (place k)) (t.operands.map Operand.unplaced) refs' :=
    List.forall₂_map_left_iff.mpr (hreads'.imp fun o ref hread => hread.unplaced)
  have hunique : Relator.RightUnique (q.Reads (place k)) := fun _ _ _ hread => hread.unique
  rw [Statement.operands_of_unplaced heq] at hmoved
  exact List.right_unique_forall₂' hunique hthere hmoved

/-- The models are the same up to the places of the nodes. -/
theorem Reorders.moved (h : p.Reorders q place)
    (hclean : Diagnostic.anyError p.model.diagnostics = false) :
    p.model.model.Moved place q.model.model where
  node k n hn := by
    obtain ⟨s, hs⟩ := exists_statement_of_node hclean hn
    obtain ⟨t, ht, heq⟩ := h.forth hs
    obtain ⟨op, refs, hn', hop, hreads⟩ := exists_make_of_clean hclean hs
    obtain ⟨op', refs', hm, hop', hreads'⟩ := exists_make_of_clean (h.clean hclean) ht
    obtain rfl := Option.some.inj (hn.symm.trans hn')
    obtain rfl : op' = op := hop'.unique (hop.of_unplaced heq)
    exact ⟨_, hm, rfl, rfl, h.refs_eq (nodup_of_clean (h.clean hclean)) hs heq hreads hreads'⟩
  onto k hk := by
    obtain ⟨t, ht⟩ := exists_statement_of_node (h.clean hclean) (List.getElem?_eq_getElem hk)
    obtain ⟨s, hs, -⟩ := h.back ht
    rw [(oneEach_of_clean hclean).length]
    exact (List.getElem?_eq_some_iff.mp hs).1
  ascending side i j hij hi hj := by
    obtain ⟨s, hs, hname⟩ := op_name_of_standsOn hclean hi
    obtain ⟨t, ht, hname'⟩ := op_name_of_standsOn hclean hj
    refine h.boundary i j s t hij hs ht (hname.trans hname'.symm) ?_
    rw [hname]
    cases side
    · exact .inl rfl
    · exact .inr rfl

end Program

/-! ## The other compilation -/

namespace Compilation

open Diagnostic (anyError)

/-- Compilation does not depend on the order of statements, as far as definitions stay before their
uses and parameters and results keep their order. If a program has no errors, it has none in another
order; for all shapes that are given for the parameters, shape inference goes through in both orders
or in neither; and if it does, the shapes of the results are the same, and so are those of each
statement's operation, at all its operands and outputs. -/
theorem run_reordered {p q : Program} {place : Equiv.Perm Nat}
    (hclean : anyError p.model.diagnostics = false) (h : p.Reorders q place)
    (shapes : List Shape) :
    anyError q.model.diagnostics = false ∧
    (((start p none).run .inferShapes shapes).failed = none ↔
      ((start q none).run .inferShapes shapes).failed = none) ∧
    (((start p none).run .inferShapes shapes).failed = none →
      ∃ out b c,
        ((start p none).run .inferShapes shapes).compilation.resultShapes = some out ∧
        ((start q none).run .inferShapes shapes).compilation.resultShapes = some out ∧
        ((start p none).run .inferShapes shapes).compilation.body = some b ∧
        ((start q none).run .inferShapes shapes).compilation.body = some c ∧
        ∀ (k : Nat) s, p.statements[k]? = some s → ∃ e e',
          b.expr ⟨k⟩ = .ok e ∧ c.expr ⟨place k⟩ = .ok e' ∧
          e.node.name = s.nodeName k ∧ e'.node.name = s.nodeName (place k) ∧
          s.Describes e.node.op ∧ e'.node.op = e.node.op ∧
          e'.inputShapes = e.inputShapes ∧ e'.outputShapes = e.outputShapes) := by
  have hclean' := h.clean hclean
  have hmoved := h.moved hclean
  obtain ⟨b, c, hb, hc, hcases⟩ :=
    Body.inferShapes_moved hmoved p.wellFormed_model q.wellFormed_model shapes
  refine ⟨hclean', ?_⟩
  rcases hcases with ⟨err, err', herr, herr'⟩ | ⟨out, hok, hok', hshapes⟩
  · obtain ⟨hfailed, -⟩ := run_of_inferShapes_error hclean hb herr (.inl rfl)
    obtain ⟨hfailed', -⟩ := run_of_inferShapes_error hclean' hc herr' (.inl rfl)
    rw [hfailed, hfailed']
    exact ⟨Iff.rfl, fun hnone => by cases hnone⟩
  · obtain ⟨hpassed, hout, hbody⟩ := run_of_inferShapes_ok hclean hb hok
    obtain ⟨hpassed', hout', hbody'⟩ := run_of_inferShapes_ok hclean' hc hok'
    refine ⟨iff_of_true hpassed hpassed', fun _ => ⟨out, _, _, hout, hout', hbody, hbody', ?_⟩⟩
    intro k s hs
    obtain ⟨op, refs, hn, hop, -⟩ := Program.exists_make_of_clean hclean hs
    obtain ⟨t, ht, heq⟩ := h.forth hs
    obtain ⟨op', refs', hn', hop', -⟩ := Program.exists_make_of_clean hclean' ht
    obtain ⟨e, e', he, he', hnode, hnode', hinputs, houtputs⟩ := hshapes k _ _ hn hn'
    obtain rfl : op' = op := hop'.unique (hop.of_unplaced heq)
    refine ⟨e, e', he, he', by rw [hnode]; rfl, ?_, hnode ▸ hop, by rw [hnode, hnode']; rfl,
      hinputs, houtputs⟩
    rw [hnode', Statement.nodeName_of_unplaced heq]
    rfl

/-- The statement that binds a name to a function of the value `x`, from a byte offset on. -/
def call (name function : String) (start : Nat) : Statement :=
  ⟨some ⟨name, ⟨start, start + 1⟩⟩, ⟨function, ⟨start + 4, start + 7⟩⟩, [],
    [⟨⟨"x", ⟨start + 8, start + 9⟩⟩, 0⟩], ⟨start, start + 10⟩⟩

/-- A parameter and two functions of it, which are added up. -/
def diamond (f g : String × String) : Program where
  statements :=
    [⟨some ⟨"x", ⟨0, 1⟩⟩, ⟨"Parameter", ⟨4, 13⟩⟩,
        [⟨⟨"shape", ⟨14, 19⟩⟩, .dims [.fixed 2 ⟨21, 22⟩] ⟨20, 23⟩⟩], [], ⟨0, 26⟩⟩,
      call f.1 f.2 27, call g.1 g.2 38,
      ⟨some ⟨"c", ⟨49, 50⟩⟩, ⟨"Add", ⟨53, 56⟩⟩, [],
        [⟨⟨"a", ⟨57, 58⟩⟩, 0⟩, ⟨⟨"b", ⟨60, 61⟩⟩, 0⟩], ⟨49, 62⟩⟩,
      ⟨none, ⟨"Result", ⟨63, 69⟩⟩, [], [⟨⟨"c", ⟨70, 71⟩⟩, 0⟩], ⟨63, 72⟩⟩]
  span := ⟨0, 73⟩

/-- Swapping neighbours keeps the order of all others. -/
theorem swap_lt_swap {n i j : Nat} (hij : i < j) (hne : ¬ (i = n ∧ j = n + 1)) :
    Equiv.swap n (n + 1) i < Equiv.swap n (n + 1) j := by
  rw [Equiv.swap_apply_def, Equiv.swap_apply_def]
  split_ifs <;> omega

theorem reorders_diamond : (diamond ("a", "Exp") ("b", "Neg")).Reorders
    (diamond ("b", "Neg") ("a", "Exp")) (Equiv.swap 1 2) where
  same k := by
    match k with
    | 0 | 1 | 2 | 3 | 4 => decide +kernel
    | k + 5 =>
      rw [Equiv.swap_apply_of_ne_of_ne (by omega) (by omega)]
      rfl
  uses i j s hij hs o ho hbinds := by
    refine swap_lt_swap hij ?_
    rintro ⟨rfl, rfl⟩
    obtain rfl := Option.some.inj hs
    obtain rfl := List.mem_singleton.mp ho
    obtain ⟨t, id, ht, hid, hname⟩ := hbinds
    obtain rfl := Option.some.inj ht
    obtain rfl := Option.some.inj hid
    exact absurd hname (by decide)
  boundary i j s t hij hs _ _ hname := by
    refine swap_lt_swap hij ?_
    rintro ⟨rfl, -⟩
    obtain rfl := Option.some.inj hs
    exact absurd hname (by decide)

/-- The functions may be called in either order. -/
theorem run_reordered_diamond :
    anyError (diamond ("a", "Exp") ("b", "Neg")).model.diagnostics = false ∧
    (diamond ("a", "Exp") ("b", "Neg")).Reorders (diamond ("b", "Neg") ("a", "Exp"))
      (Equiv.swap 1 2) ∧
    ((start (diamond ("a", "Exp") ("b", "Neg")) none).run .inferShapes
      [⟨[.static 3]⟩]).compilation.resultShapes = some [⟨[.static 3]⟩] ∧
    anyError (diamond ("b", "Neg") ("a", "Exp")).model.diagnostics = false ∧
    ((start (diamond ("b", "Neg") ("a", "Exp")) none).run .inferShapes
      [⟨[.static 3]⟩]).compilation.resultShapes = some [⟨[.static 3]⟩] := by
  have hclean : anyError (diamond ("a", "Exp") ("b", "Neg")).model.diagnostics = false := by
    decide +kernel
  obtain ⟨hclean', -, hsame⟩ := run_reordered hclean reorders_diamond [⟨[.static 3]⟩]
  have hpassed : ((start (diamond ("a", "Exp") ("b", "Neg")) none).run .inferShapes
      [⟨[.static 3]⟩]).failed = none := by
    rw [run, Pass.required_inferShapes]
    decide +kernel
  have hout : ((start (diamond ("a", "Exp") ("b", "Neg")) none).run .inferShapes
      [⟨[.static 3]⟩]).compilation.resultShapes = some [⟨[.static 3]⟩] := by
    rw [run, Pass.required_inferShapes]
    decide +kernel
  obtain ⟨out, b, c, hout', hother, -⟩ := hsame hpassed
  obtain rfl := Option.some.inj (hout.symm.trans hout')
  exact ⟨hclean, reorders_diamond, hout, hclean', hother⟩

end Compilation

end TensorIR
