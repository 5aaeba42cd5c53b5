import TensorIR.Proofs.Source.Patterns

/-!
# What number literals say

A whole number denotes an integer, however large (`literalValue`), and is read if the integer fits
into a signed word. A float is always read: digits, a tail, and nothing that its reader refuses.
-/

set_option autoImplicit false

namespace TensorIR.Source

open Computability Pattern

/-! ## Whole numbers -/

/-- The integer that a literal denotes. -/
def literalValue : List Char → Int
  | '-' :: ds => -(Nat.ofDigitChars 10 ds 0 : Int)
  | ds => Nat.ofDigitChars 10 ds 0

/-- The integer is a signed word of 64 bits. -/
def FitsWord (n : Int) : Prop := -(Numeral.signedBound : Int) ≤ n ∧ n < Numeral.signedBound

instance (n : Int) : Decidable (FitsWord n) := inferInstanceAs (Decidable (_ ∧ _))

variable {text ds tail : List Char} {n : Int}

theorem readNat?_of_digits (h : ds ∈ digits) :
    Numeral.readNat? ds = some (Nat.ofDigitChars 10 ds 0) := by
  obtain ⟨hne, hall⟩ := mem_run_iff.mp h
  simp only [Numeral.readNat?, List.all_eq_true.mpr hall, List.isEmpty_eq_false_iff.mpr hne,
    Bool.not_false, Bool.and_self, if_true]

/-- A whole number is read if and only if its value fits, and then as its value. -/
theorem readSigned?_eq (h : text ∈ int) : Numeral.readSigned? text =
    if FitsWord (literalValue text) then some (literalValue text) else none := by
  obtain _ | ⟨c, u⟩ := text
  · exact absurd h nil_notMem_int
  · rcases cons_mem_int_iff.mp h with ⟨hc, hu⟩ | ⟨rfl, hu⟩
    · have hminus : c ≠ '-' := by rintro rfl; revert hc; decide
      have hread := readNat?_of_digits (cons_mem_run_iff.mpr ⟨hc, hu⟩)
      have hvalue : literalValue (c :: u) = (Nat.ofDigitChars 10 (c :: u) 0 : Int) := by
        simp [literalValue, hminus]
      have hsigned : Numeral.readSigned? (c :: u) =
          ((Numeral.readNat? (c :: u)).filter (· < Numeral.signedBound)).bind
            fun n => some (n : Int) := by
        simp [Numeral.readSigned?, hminus]
      rw [hsigned, hread, hvalue, Option.filter_some]
      generalize Nat.ofDigitChars 10 (c :: u) 0 = n
      by_cases hn : n < Numeral.signedBound
      · rw [if_pos (by simpa using hn), if_pos ⟨by omega, by omega⟩]
        rfl
      · rw [if_neg (by simpa using hn), if_neg fun hfits => hn (by have := hfits.2; omega)]
        rfl
    · have hsigned : Numeral.readSigned? ('-' :: u) =
          ((Numeral.readNat? u).filter (· ≤ Numeral.signedBound)).bind
            fun n => some (-(n : Int)) := by
        simp [Numeral.readSigned?]
      have hvalue : literalValue ('-' :: u) = -(Nat.ofDigitChars 10 u 0 : Int) := rfl
      rw [hsigned, readNat?_of_digits hu, hvalue, Option.filter_some]
      generalize Nat.ofDigitChars 10 u 0 = n
      have hpos : 0 < Numeral.signedBound := by decide
      by_cases hn : n ≤ Numeral.signedBound
      · rw [if_pos (by simpa using hn), if_pos ⟨by omega, by omega⟩]
        rfl
      · rw [if_neg (by simpa using hn), if_neg fun hfits => hn (by have := hfits.1; omega)]
        rfl

/-! ## Floats -/

theorem isSome_readExponent? (h : tail ∈ optional exponent) :
    (Binary64.readExponent? tail).isSome = true := by
  rcases h with rfl | h
  · rfl
  · obtain ⟨a, ⟨marker, hmarker, rfl⟩, b, hb, rfl⟩ := Language.mem_mul.mp h
    obtain ⟨sign, hsign, ds, hds, rfl⟩ := Language.mem_mul.mp hb
    have hmark : marker = 'e' ∨ marker = 'E' := by simpa using hmarker
    have hread := readNat?_of_digits hds
    rcases hsign with rfl | ⟨sign, hsign, rfl⟩
    · obtain _ | ⟨d, ds⟩ := ds
      · exact absurd hds nil_notMem_one_mul
      · have hd := (cons_mem_run_iff.mp hds).1
        have hminus : d ≠ '-' := by rintro rfl; revert hd; decide
        have hplus : d ≠ '+' := by rintro rfl; revert hd; decide
        simp [Binary64.readExponent?, hmark, hminus, hplus, hread]
    · have hsign : sign = '+' ∨ sign = '-' := by simpa using hsign
      rcases hsign with rfl | rfl <;> simp [Binary64.readExponent?, hmark, hread]

theorem span_isDigit_append (hds : ∀ d ∈ ds, d.isDigit = true)
    (htail : tail = [] ∨ NoDigitFirst tail) : (ds ++ tail).span Char.isDigit = (ds, tail) := by
  have htake : (ds ++ tail).takeWhile Char.isDigit = ds := by
    rw [List.takeWhile_append_of_pos hds]
    rcases htail with rfl | ⟨c, v, rfl, hc⟩
    · simp
    · simp [hc]
  have hdrop : (ds ++ tail).dropWhile Char.isDigit = tail := by
    rw [List.dropWhile_append_of_pos hds]
    rcases htail with rfl | ⟨c, v, rfl, hc⟩
    · simp
    · simp [hc]
  rw [List.span_eq_takeWhile_dropWhile, htake, hdrop]

theorem isSome_readMagnitude? (negative : Bool) (hds : ds ∈ digits) (htail : tail ∈ floatTail) :
    (Binary64.readMagnitude? negative (ds ++ tail)).isSome = true := by
  obtain ⟨hne, hall⟩ := mem_run_iff.mp hds
  have hspan := span_isDigit_append hall (.inr (noDigitFirst_of_floatTail htail))
  rcases htail with ⟨a, ha, e, he, rfl⟩ | he
  · obtain ⟨point, ⟨c, hc, rfl⟩, fs, hfs, rfl⟩ := Language.mem_mul.mp ha
    obtain rfl := of_decide_eq_true hc
    obtain ⟨-, hfs⟩ := mem_run_iff.mp hfs
    have hfraction := span_isDigit_append hfs (he.imp id noDigitFirst_of_exponent)
    have hboth : ds ++ fs ∈ digits :=
      mem_run_iff.mpr ⟨by simp [hne], by simpa [or_imp, forall_and] using ⟨hall, hfs⟩⟩
    have hread := readNat?_of_digits hboth
    obtain ⟨n, hn⟩ := Option.isSome_iff_exists.mp (isSome_readExponent? he)
    simp only [List.cons_append, List.nil_append] at hspan ⊢
    simp only [Binary64.readMagnitude?, hspan, hfraction]
    simp [hread, hn]
  · obtain ⟨n, hn⟩ := Option.isSome_iff_exists.mp (isSome_readExponent? (.inr he))
    have hpoint : ∀ rest, tail ≠ '.' :: rest := by
      rintro rest rfl
      obtain ⟨hc, -⟩ := cons_mem_one_mul_iff.mp he
      revert hc
      decide
    simp only [Binary64.readMagnitude?, hspan]
    simp [readNat?_of_digits hds, hn]

/-- A float is read, whatever its size. -/
theorem isSome_read?_of_float (h : text ∈ float) : (Binary64.read? text).isSome = true := by
  obtain ⟨a, ha, tail, htail, rfl⟩ := Language.mem_mul.mp h
  obtain _ | ⟨c, u⟩ := a
  · exact absurd ha nil_notMem_int
  · rcases cons_mem_int_iff.mp ha with ⟨hc, hu⟩ | ⟨rfl, hu⟩
    · have hminus : c ≠ '-' := by rintro rfl; revert hc; decide
      have hplus : c ≠ '+' := by rintro rfl; revert hc; decide
      have hread := isSome_readMagnitude? false (cons_mem_run_iff.mpr ⟨hc, hu⟩) htail
      simp only [List.cons_append] at hread ⊢
      simp [Binary64.read?, hminus, hplus, hread]
    · have hread := isSome_readMagnitude? true hu htail
      simp [Binary64.read?, hread]

end TensorIR.Source
