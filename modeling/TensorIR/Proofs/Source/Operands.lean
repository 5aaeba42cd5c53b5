import Mathlib.Data.List.TakeWhile
import TensorIR.Source.Program

/-!
# How identifiers read as operands

An identifier is cut at its last point if a numeral follows the point and something precedes it
(`Operand.Numbered`). Points and numerals elsewhere in it do not matter, so there is one way to cut
it at most, and `Operand.Spells` says what an operand is without a word on how it is found.
-/

set_option autoImplicit false

namespace TensorIR

namespace Operand

variable {base suffix cs : List Char} {id : Ident} {port : Nat} {o : Operand}

/-! ## Cutting a name at its last point -/

theorem cutLast?_append (hsuffix : '.' ∉ suffix) :
    cutLast? (base ++ '.' :: suffix) = some (base, suffix) := by
  have htake : (base ++ '.' :: suffix).reverse.takeWhile (· ≠ '.') = suffix.reverse := by
    rw [List.reverse_append, List.reverse_cons, List.append_assoc, List.takeWhile_append_of_pos]
    · simp
    · intro c hc
      have hne : c ≠ '.' := by
        rintro rfl
        exact hsuffix (List.mem_reverse.mp hc)
      exact decide_eq_true hne
  have hlength : suffix.length < (base ++ '.' :: suffix).length := by
    simp only [List.length_append, List.length_cons]
    omega
  have hbase : (base ++ '.' :: suffix).length - suffix.length - 1 = base.length := by
    simp only [List.length_append, List.length_cons]
    omega
  simp only [cutLast?, htake, List.reverse_reverse, if_pos hlength, hbase, List.take_left]

theorem cutLast?_of_notMem (h : '.' ∉ cs) : cutLast? cs = none := by
  have htake : cs.reverse.takeWhile (· ≠ '.') = cs.reverse := by
    refine List.takeWhile_eq_self_iff.mpr fun c hc => decide_eq_true ?_
    rintro rfl
    exact h (List.mem_reverse.mp hc)
  simp only [cutLast?, htake, List.reverse_reverse, Nat.lt_irrefl, if_false]

theorem exists_last_point (h : '.' ∈ cs) :
    ∃ base suffix, cs = base ++ '.' :: suffix ∧ '.' ∉ suffix := by
  obtain ⟨front, rest, hcs, hfront⟩ := List.eq_append_cons_of_mem (List.mem_reverse.mpr h)
  refine ⟨rest.reverse, front.reverse, ?_, fun hmem => hfront (List.mem_reverse.mp hmem)⟩
  rw [← List.reverse_reverse cs, hcs]
  simp

theorem notMem_of_readWord? (h : Numeral.readWord? cs = some port) : '.' ∉ cs := by
  have hnat : ∀ ds n, Numeral.readNat? ds = some n → '.' ∉ ds := by
    intro ds n hds hmem
    simp only [Numeral.readNat?, Option.ite_none_right_eq_some, Bool.and_eq_true,
      List.all_eq_true] at hds
    have := hds.1.2 '.' hmem
    simp [Char.isDigit] at this
  obtain ⟨hmagnitude, -⟩ := Option.filter_eq_some_iff.mp h
  split at hmagnitude
  next rest =>
    intro hmem
    rcases List.mem_cons.mp hmem with hplus | hmem
    · exact absurd hplus (by decide)
    · exact hnat _ _ hmagnitude hmem
  next => exact hnat _ _ hmagnitude

/-! ## Reading an operand -/

/-- The text is a name, a point and a numeral: it reads as an output of the value of that name. -/
def Numbered (cs base : List Char) (port : Nat) : Prop :=
  base ≠ [] ∧ ∃ digits, cs = base ++ '.' :: digits ∧ Numeral.readWord? digits = some port

theorem not_numbered_of_cut (hcut : cutLast? cs = some (base, suffix))
    (hsuffix : Numeral.readWord? suffix = none) (base' : List Char) (port : Nat) :
    ¬ Numbered cs base' port := by
  intro hx
  obtain ⟨-, digits, rfl, hport⟩ := hx
  rw [cutLast?_append (notMem_of_readWord? hport)] at hcut
  obtain ⟨-, rfl⟩ := Prod.mk.inj (Option.some.inj hcut)
  rw [hsuffix] at hport
  cases hport

theorem ofIdent_of_numbered (h : Numbered id.name.toList base port) :
    ofIdent id = ⟨⟨String.ofList base, id.span⟩, port⟩ := by
  obtain ⟨hbase, digits, hname, hport⟩ := h
  have hcut : cutLast? id.name.toList = some (base, digits) := by
    rw [hname]
    exact cutLast?_append (notMem_of_readWord? hport)
  have hempty : base.isEmpty = false := by simpa using hbase
  simp only [ofIdent, hcut, hport, hempty, Bool.false_eq_true, if_false]

theorem ofIdent_of_not_numbered (h : ∀ base port, ¬ Numbered id.name.toList base port) :
    ofIdent id = ⟨id, 0⟩ := by
  by_cases hpoint : '.' ∈ id.name.toList
  · obtain ⟨base, suffix, hname, hsuffix⟩ := exists_last_point hpoint
    have hcut : cutLast? id.name.toList = some (base, suffix) := by
      rw [hname]
      exact cutLast?_append hsuffix
    simp only [ofIdent, hcut]
    cases hport : Numeral.readWord? suffix with
    | none => rfl
    | some port =>
      cases base with
      | nil => rfl
      | cons c base => exact absurd ⟨List.cons_ne_nil c base, suffix, hname, hport⟩ (h _ port)
  · simp only [ofIdent, cutLast?_of_notMem hpoint]

/-- What an identifier means as an operand: an output of a value by its number, if that is how it
reads, and otherwise the first output of the value of that name. -/
inductive Spells (id : Ident) : Operand → Prop
  | numbered {base : List Char} {port : Nat} (h : Numbered id.name.toList base port) :
    Spells id ⟨⟨String.ofList base, id.span⟩, port⟩
  | plain (h : ∀ base port, ¬ Numbered id.name.toList base port) : Spells id ⟨id, 0⟩

theorem spells_iff : Spells id o ↔ o = ofIdent id := by
  constructor
  · intro h
    cases h with
    | numbered h => exact (ofIdent_of_numbered h).symm
    | plain h => exact (ofIdent_of_not_numbered h).symm
  · rintro rfl
    by_cases h : ∃ base port, Numbered id.name.toList base port
    · obtain ⟨base, port, h⟩ := h
      exact ofIdent_of_numbered h ▸ .numbered h
    · have hplain : ∀ base port, ¬ Numbered id.name.toList base port :=
        fun base port hnumbered => h ⟨base, port, hnumbered⟩
      exact ofIdent_of_not_numbered hplain ▸ .plain hplain

theorem span_ofIdent (id : Ident) : (ofIdent id).name.span = id.span := by
  unfold ofIdent
  split
  · split
    · split <;> rfl
    · rfl
  · rfl

end Operand

end TensorIR
