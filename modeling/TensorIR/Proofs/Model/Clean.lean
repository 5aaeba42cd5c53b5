import TensorIR.Proofs.Model.Faithful

/-!
# Which programs have no errors

Whether a program has errors can be told from its text (`Program.clean_iff`): it has none if names
are bound once each and every statement fits in its place, that is, it describes an operation and
has as many operands as that takes, all of which name outputs of earlier statements.

In one direction this is read off the finished model. In the other the model is built statement by
statement: as long as all statements have become nodes, the table of names finds the nodes that the
text speaks of, so the next statement becomes a node as well.
-/

set_option autoImplicit false

namespace TensorIR

namespace Builder

variable {b : Builder} {index : Nat} {s : Statement} {names : List (String × Binding)}

/-- Operands that all stand for outputs are resolved to these, and nothing is reported. -/
theorem exists_resolve {operands : List Operand}
    (h : ∀ o ∈ operands, ∃ ref, Denotes names o ref) :
    ∃ refs, resolve names operands = (some refs, []) ∧
      List.Forall₂ (Denotes names) operands refs := by
  induction operands with
  | nil => exact ⟨[], rfl, .nil⟩
  | cons o operands ih =>
    obtain ⟨ref, ⟨span, hlookup⟩, hport⟩ := h o List.mem_cons_self
    obtain ⟨refs, hrefs, hall⟩ := ih fun o ho => h o (List.mem_cons_of_mem _ ho)
    refine ⟨ref :: refs, ?_, .cons ⟨⟨span, hlookup⟩, hport⟩ hall⟩
    simp only [resolve, hlookup, hrefs, hport, Option.map_some]

/-- A statement whose node is accepted adds it. -/
theorem model_place {op : Op} {refs : List OutputRef} {m : Model} (hop : s.op? = .ok op)
    (hrefs : resolve b.names s.operands = (some refs, []))
    (hadd : b.model.add? (Node.make (s.nodeName index) op) refs = .ok m) :
    (b.place index s).2.model = m := by
  simp only [place, hop, hrefs, addNode, report, hadd]

end Builder

namespace Program

open Builder

variable {p : Program} {k : Nat} {s : Statement} {o : Operand}

/-- The operand names an output of a statement before the position. -/
def NamesOutput (p : Program) (k : Nat) (o : Operand) : Prop :=
  ∃ i t op, i < k ∧ p.Binds i o.name.name ∧ p.statements[i]? = some t ∧ t.Describes op ∧
    o.port < op.outputCount

/-- The statement makes sense at the position. -/
def Fits (p : Program) (k : Nat) (s : Statement) : Prop :=
  ∃ op, s.Describes op ∧ s.operands.length = op.inputCount ∧ ∀ o ∈ s.operands, p.NamesOutput k o

/-! ## Programs without errors fit -/

theorem fits_of_clean (hclean : Diagnostic.anyError p.model.diagnostics = false)
    (hs : p.statements[k]? = some s) : p.Fits k s := by
  obtain ⟨n, hn, hrepresents, hreads⟩ := node_of_clean hclean hs
  obtain ⟨harity, hresolves⟩ := p.wellFormed_model k n hn
  refine ⟨n.node.op, hrepresents.op, hreads.length_eq.trans harity, fun o ho => ?_⟩
  obtain ⟨ref, href, hread⟩ := exists_right_of_forall₂ hreads ho
  obtain ⟨producer, hproducer, hport⟩ := hresolves ref href
  rw [List.getElem?_take_of_lt hread.earlier] at hproducer
  obtain ⟨t, id, ht, hid, hname⟩ := hread.binds
  obtain ⟨n', hn', hrepresents', -⟩ := node_of_clean hclean ht
  obtain rfl := Option.some.inj (hproducer.symm.trans hn')
  exact ⟨ref.node, t, producer.node.op, hread.earlier, ⟨t, id, ht, hid, hname⟩, ht,
    hrepresents'.op, hread.port ▸ hport⟩

/-! ## Programs that fit have no errors -/

/-- As long as all statements have become nodes, the table of names finds the node that an operand
speaks of. -/
theorem NamesOutput.denotes (hnodup : p.boundNames.Nodup) (hk : k ≤ p.statements.length)
    (hlengths : ∀ j ≤ k, (p.builderAt j).model.nodes.length = j) (h : p.NamesOutput k o) :
    ∃ ref, Denotes (p.builderAt k).names o ref ∧
      Model.Resolves (p.builderAt k).model.nodes ref := by
  obtain ⟨i, t, op, hik, ⟨t', id, ht', hid, hname⟩, ht, hop, hport⟩ := h
  obtain rfl := Option.some.inj (ht.symm.trans ht')
  have hnode : p.nodeOf? i = some i :=
    nodeOf?_of_lengths ht (hlengths i (Nat.le_of_lt hik)) (hlengths (i + 1) hik)
  have hlookup := lookup_of_first ht hid hnode (fun j u earlier hj hu hearlier heq =>
    nodup_boundNames_iff.mp hnodup j i id.name hj ⟨u, earlier, hu, hearlier, heq⟩
      ⟨t, id, ht, hid, rfl⟩) hik
  rw [hname] at hlookup
  refine ⟨⟨i, o.port⟩, ⟨⟨id.span, hlookup⟩, rfl⟩, ?_⟩
  obtain ⟨op', refs, hop', -, hn⟩ := built ht hnode
  obtain rfl := hop.unique (Statement.op?_eq_ok_iff.mp hop')
  -- The node was there already when the later statement was met.
  have hlt : i < (p.builderAt k).model.nodes.length := by rwa [hlengths k (Nat.le_refl k)]
  refine ⟨⟨Node.make (t.nodeName i) op, refs⟩, ?_, hport⟩
  obtain ⟨rest, hrest⟩ := (p.grows_builderAt hk).nodes
  rw [model_eq, ← hrest, List.getElem?_append_left hlt] at hn
  exact hn

theorem length_nodes_of_fits (hnodup : p.boundNames.Nodup)
    (hfits : ∀ k s, p.statements[k]? = some s → p.Fits k s) (hk : k ≤ p.statements.length) :
    (p.builderAt k).model.nodes.length = k := by
  induction k using Nat.strongRecOn with
  | ind k ih =>
    cases k with
    | zero => rfl
    | succ k =>
      have hlengths : ∀ j ≤ k, (p.builderAt j).model.nodes.length = j :=
        fun j hj => ih j (Nat.lt_succ_of_le hj) (Nat.le_trans hj (Nat.le_of_lt hk))
      obtain ⟨s, hs⟩ : ∃ s, p.statements[k]? = some s := ⟨_, List.getElem?_eq_getElem hk⟩
      obtain ⟨op, hop, harity, hoperands⟩ := hfits k s hs
      have hdenotes := fun o ho =>
        (hoperands o ho).denotes hnodup (Nat.le_of_lt hk) hlengths
      obtain ⟨refs, hrefs, hall⟩ := exists_resolve fun o ho => (hdenotes o ho).imp fun _ => And.left
      have hresolves : ∀ ref ∈ refs, Model.Resolves (p.builderAt k).model.nodes ref := by
        intro ref href
        obtain ⟨o, ho, hdenoted⟩ := exists_left_of_forall₂ hall href
        obtain ⟨ref', hdenoted', hresolves⟩ := hdenotes o ho
        exact hdenoted.unique hdenoted' ▸ hresolves
      have hadd := Model.add?_eq_ok_iff.mpr
        ⟨hall.length_eq.symm.trans (harity.trans (Node.inputCount_make (s.nodeName k) op).symm),
          hresolves, rfl⟩
      rw [builderAt_succ hs, model_statement,
        model_place (Statement.op?_eq_ok_iff.mpr hop) hrefs hadd, List.length_append,
        hlengths k (Nat.le_refl k)]
      rfl

/-- A program has no errors if and only if names are bound once each and every statement makes sense
where it stands. -/
theorem clean_iff (p : Program) : Diagnostic.anyError p.model.diagnostics = false ↔
    p.boundNames.Nodup ∧ ∀ k s, p.statements[k]? = some s → p.Fits k s := by
  constructor
  · intro hclean
    exact ⟨nodup_of_clean hclean, fun k s hs => fits_of_clean hclean hs⟩
  · rintro ⟨hnodup, hfits⟩
    refine clean_of_full hnodup ?_
    rw [model_eq]
    exact length_nodes_of_fits hnodup hfits (Nat.le_refl _)

end Program

end TensorIR
