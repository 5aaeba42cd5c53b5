import TensorIR.Proofs.Model.Building
import TensorIR.Proofs.Source.Operands
import TensorIR.Proofs.Source.Reading

/-!
# What operands stand for

An operand that is spelled as a name, a point and a numeral is an output of the value of that name,
whatever the name is. So a name that ends in a point and a numeral itself can be bound but not read:
as an operand it is an output of another value. All other names stand for the first output of their
value (`operand_resolvesTo`).
-/

set_option autoImplicit false

namespace TensorIR

namespace Program

open Builder Operand

variable {p : Program} {i j k slot node : Nat} {s t : Statement} {o : Operand} {ref : OutputRef}

/-- The operand of a statement is taken for an output: that is what it stands for when the builder
comes to the statement, and what the statement's node reads, if it has one. -/
structure ResolvesTo (p : Program) (j slot : Nat) (ref : OutputRef) : Prop where
  resolved : ∃ t o, p.statements[j]? = some t ∧ t.operands[slot]? = some o ∧
    resolve (p.builderAt j).names [o] = (some [ref], [])
  read : ∀ m, p.nodeOf? j = some m → ∃ n, p.model.model.nodes[m]? = some n ∧
    n.inputs[slot]? = some ref

theorem resolve_of_denotes {names : List (String × Binding)} (h : Denotes names o ref) :
    resolve names [o] = (some [ref], []) := by
  obtain ⟨⟨span, hlookup⟩, hport⟩ := h
  simp only [resolve, hlookup, hport]
  rfl

theorem resolvesTo_of_denotes (ht : p.statements[j]? = some t) (ho : t.operands[slot]? = some o)
    (h : Denotes (p.builderAt j).names o ref) : p.ResolvesTo j slot ref where
  resolved := ⟨t, o, ht, ho, resolve_of_denotes h⟩
  read := by
    intro m hm
    obtain ⟨op, refs, -, hrefs, hnode⟩ := p.built ht hm
    refine ⟨_, hnode, ?_⟩
    obtain ⟨hslot, rfl⟩ := List.getElem?_eq_some_iff.mp ho
    have hslot' : slot < refs.length := hrefs.length_eq ▸ hslot
    have hread := (List.forall₂_iff_get.mp hrefs).2 slot hslot hslot'
    exact (List.getElem?_eq_getElem hslot').trans (congrArg some (hread.unique h))

/-- The first statement that binds a name is what operands with this name stand for, later on: `n.p`
is its output `p`, and `n` is its first output. Only if `n` itself reads as an output of a value is
it taken for that output. -/
theorem operand_resolvesTo {source : List Char} (hparse : (parse source).program = some p)
    {name : Ident} {n : List Char} (hs : p.statements[i]? = some s)
    (hname : s.result = some name) (hn : Source.text? source name.span = some n)
    (hfirst : ∀ k u earlier, k < i → p.statements[k]? = some u → u.result = some earlier →
      Source.text? source earlier.span ≠ some n)
    (hnode : p.nodeOf? i = some node) (hij : i < j) (ht : p.statements[j]? = some t)
    (ho : t.operands[slot]? = some o) :
    (∃ op refs, s.op? = .ok op ∧
      p.model.model.nodes[node]? = some ⟨Node.make (String.ofList n) op, refs⟩) ∧
    (∀ digits port, Source.text? source o.name.span = some (n ++ '.' :: digits) →
      Numeral.readWord? digits = some port → p.ResolvesTo j slot ⟨node, port⟩) ∧
    (Source.text? source o.name.span = some n →
      ((∀ base port, ¬ Numbered n base port) → p.ResolvesTo j slot ⟨node, 0⟩) ∧
      ∀ base port, Numbered n base port → o.name.name = String.ofList base ∧ o.port = port) := by
  obtain ⟨htext, hne⟩ := text?_result hparse (List.mem_of_getElem? hs) hname
  obtain rfl : name.name.toList = n := Option.some.inj (htext.symm.trans hn)
  have hlookup : (p.builderAt j).names.lookup name.name = some (.node node name.span) := by
    refine lookup_of_first hs hname hnode (fun k u earlier hk hu hearlier hsame => ?_) hij
    refine hfirst k u earlier hk hu hearlier ?_
    rw [(text?_result hparse (List.mem_of_getElem? hu) hearlier).1, hsame]
  obtain ⟨id, hid, rfl⟩ :=
    exists_ident_of_operand hparse (List.mem_of_getElem? ht) (List.mem_of_getElem? ho)
  rw [span_ofIdent, hid]
  refine ⟨?_, fun digits port hspelled hport => ?_, fun hspelled => ⟨fun hplain => ?_, ?_⟩⟩
  · obtain ⟨op, refs, hop, -, hbuilt⟩ := p.built hs hnode
    refine ⟨op, refs, hop, ?_⟩
    rw [hbuilt, String.ofList_toList, Statement.nodeName, hname]
  · have hnumbered : Numbered id.name.toList name.name.toList port :=
      ⟨hne, digits, Option.some.inj hspelled, hport⟩
    refine resolvesTo_of_denotes ht ho ?_
    rw [ofIdent_of_numbered hnumbered, String.ofList_toList]
    exact ⟨⟨name.span, hlookup⟩, rfl⟩
  · refine resolvesTo_of_denotes ht ho ?_
    rw [ofIdent_of_not_numbered (by rwa [Option.some.inj hspelled])]
    have hsame : id.name = name.name := String.toList_inj.mp (Option.some.inj hspelled)
    exact ⟨⟨name.span, hsame ▸ hlookup⟩, rfl⟩
  · intro base port hnumbered
    rw [← Option.some.inj hspelled] at hnumbered
    rw [ofIdent_of_numbered hnumbered]
    exact ⟨rfl, rfl⟩

/-! ## A name with a point in it -/

/-- A program that binds a name and reads it twice, the second time as an output by its number. -/
def layerText (name : String) : List Char :=
  (name ++ " = Parameter[shape=[2]]()\nAdd(" ++ name ++ ", " ++ name ++ ".0)\n").toList

/-- What the text says if the name has seven letters. -/
def layer (name : String) : Program where
  statements :=
    [⟨some ⟨name, ⟨0, 7⟩⟩, ⟨"Parameter", ⟨10, 19⟩⟩,
        [⟨⟨"shape", ⟨20, 25⟩⟩, .dims [.fixed 2 ⟨27, 28⟩] ⟨26, 29⟩⟩], [], ⟨0, 32⟩⟩,
      ⟨none, ⟨"Add", ⟨33, 36⟩⟩, [],
        [.ofIdent ⟨name, ⟨37, 44⟩⟩, .ofIdent ⟨name ++ ".0", ⟨46, 55⟩⟩], ⟨33, 56⟩⟩]
  span := ⟨0, 57⟩

/-- What follows the point in `layer.w` is no numeral, so the name can be read. -/
theorem operand_resolvesTo_layer :
    (parse (layerText "layer.w")).program = some (layer "layer.w") ∧
    (layer "layer.w").nodeOf? 0 = some 0 ∧
    Source.text? (layerText "layer.w") ⟨37, 44⟩ = some "layer.w".toList ∧
    Source.text? (layerText "layer.w") ⟨46, 55⟩ = some "layer.w.0".toList ∧
    (layer "layer.w").ResolvesTo 1 0 ⟨0, 0⟩ ∧ (layer "layer.w").ResolvesTo 1 1 ⟨0, 0⟩ := by
  have hparse : (parse (layerText "layer.w")).program = some (layer "layer.w") := by
    decide +kernel
  have hs : (layer "layer.w").statements[0]? = some _ := rfl
  have ht : (layer "layer.w").statements[1]? = some _ := rfl
  have hnode : (layer "layer.w").nodeOf? 0 = some 0 := by decide +kernel
  have hname : Source.text? (layerText "layer.w") ⟨0, 7⟩ = some "layer.w".toList := by
    decide +kernel
  have hfirst : Source.text? (layerText "layer.w") ⟨37, 44⟩ = some "layer.w".toList := by
    decide +kernel
  have hsecond : Source.text? (layerText "layer.w") ⟨46, 55⟩ = some "layer.w.0".toList := by
    decide +kernel
  have hcut : cutLast? "layer.w".toList = some ("layer".toList, ['w']) := by decide +kernel
  refine ⟨hparse, hnode, hfirst, hsecond, ?_, ?_⟩
  · obtain ⟨-, -, hspelled⟩ := operand_resolvesTo hparse hs rfl hname
      (fun k u earlier hk => absurd hk (Nat.not_lt_zero k)) hnode Nat.one_pos ht
      (show [_, _][0]? = some _ from rfl)
    exact (hspelled hfirst).1 (not_numbered_of_cut hcut (by decide))
  · obtain ⟨-, hspelled, -⟩ := operand_resolvesTo hparse hs rfl hname
      (fun k u earlier hk => absurd hk (Nat.not_lt_zero k)) hnode Nat.one_pos ht
      (show [_, _][1]? = some _ from rfl)
    exact hspelled ['0'] 0 hsecond (by decide)

/-- The name `layer.1` can be bound, but as an operand it is an output of `layer`. -/
theorem operand_of_numbered_name :
    (parse (layerText "layer.1")).program = some (layer "layer.1") ∧
    (layer "layer.1").nodeOf? 0 = some 0 ∧
    Source.text? (layerText "layer.1") ⟨0, 7⟩ = some "layer.1".toList ∧
    Source.text? (layerText "layer.1") ⟨37, 44⟩ = some "layer.1".toList ∧
    ¬ (layer "layer.1").ResolvesTo 1 0 ⟨0, 0⟩ := by
  refine ⟨by decide +kernel, by decide +kernel, by decide +kernel, by decide +kernel,
    fun hresolves => ?_⟩
  obtain ⟨t, o, ht, ho, hresolved⟩ := hresolves.resolved
  obtain rfl := Option.some.inj ht
  obtain rfl := Option.some.inj ho
  revert hresolved
  decide +kernel

end Program

end TensorIR
