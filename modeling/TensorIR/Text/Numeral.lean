/-!
# Decimal numerals

Indices, dimensions and counts are unsigned words of 64 bits and are written in decimal. This file
reads such numerals from characters and says what they denote; printing is the usual decimal
notation without leading zeros. The two agree (`readWord?_digits`): what is printed for a word
is read back as that word.

Reading is more generous than printing: leading zeros and one leading `+` are accepted. It is not
more generous than that: no other sign, no separators, no blanks.
-/

set_option autoImplicit false

namespace TensorIR.Numeral

/-- One past the largest unsigned word of 64 bits. -/
abbrev wordBound : Nat := 18446744073709551616

/-- One past the largest signed word of 64 bits. -/
abbrev signedBound : Nat := 9223372036854775808

/-- The decimal digits of a number, most significant first. -/
def digits (n : Nat) : List Char := Nat.toDigits 10 n

/-- The number that a non-empty run of decimal digits denotes. -/
def readNat? (cs : List Char) : Option Nat :=
  if !cs.isEmpty && cs.all Char.isDigit then some (Nat.ofDigitChars 10 cs 0) else none

/-- The unsigned word that a numeral denotes: digits, after at most one `+`. -/
def readWord? (cs : List Char) : Option Nat :=
  let magnitude := match cs with
    | '+' :: rest => rest
    | _ => cs
  (readNat? magnitude).filter (· < wordBound)

/-- The signed word that a literal denotes: digits, after at most one `-`. -/
def readSigned? (cs : List Char) : Option Int :=
  match cs with
  | '-' :: rest => ((readNat? rest).filter (· ≤ signedBound)).map fun n => -(n : Int)
  | _ => ((readNat? cs).filter (· < signedBound)).map fun n => (n : Int)

/-! ## Reading what was printed -/

theorem digits_ne_nil (n : Nat) : digits n ≠ [] := by
  simp [digits]

theorem all_isDigit_digits (n : Nat) : (digits n).all Char.isDigit = true := by
  simp only [List.all_eq_true, digits]
  intro c hc
  exact Nat.isDigit_of_mem_toDigits (by decide) (by decide) hc

theorem notMem_digits {c : Char} (hc : c.isDigit = false) (n : Nat) : c ∉ digits n := by
  intro hmem
  have hdigit : c.isDigit = true := List.all_eq_true.mp (all_isDigit_digits n) c hmem
  exact Bool.false_ne_true (hc.symm.trans hdigit)

theorem readNat?_digits (n : Nat) : readNat? (digits n) = some n := by
  have hne : (digits n).isEmpty = false := by
    simpa [List.isEmpty_eq_false_iff] using digits_ne_nil n
  have hvalue : Nat.ofDigitChars 10 (digits n) 0 = n :=
    Nat.ofDigitChars_toDigits (by decide) (by decide)
  simp only [readNat?, hne, all_isDigit_digits, hvalue, Bool.not_false, Bool.and_self, if_true]

/-- A word's numeral starts with a digit, so the reader meets no sign in it. -/
theorem readWord?_digits {n : Nat} (h : n < wordBound) : readWord? (digits n) = some n := by
  have hplus : ∀ rest, digits n ≠ '+' :: rest := by
    intro rest heq
    have := all_isDigit_digits n
    rw [heq] at this
    simp [Char.isDigit] at this
  unfold readWord?
  split
  next rest heq => exact absurd heq (hplus rest)
  next => simp [readNat?_digits, Option.filter, h]

section

variable {r s : List Char}

/-- A numeral ends where no digit follows. -/
theorem takeWhile_digits_append (n : Nat) (hr : ∀ c ∈ r.head?, c.isDigit = false) :
    (digits n ++ r).takeWhile Char.isDigit = digits n := by
  rw [List.takeWhile_append_of_pos (List.all_eq_true.mp (all_isDigit_digits n))]
  cases r with
  | nil => simp
  | cons c r => simp [hr c rfl]

theorem dropWhile_digits_append (n : Nat) (hr : ∀ c ∈ r.head?, c.isDigit = false) :
    (digits n ++ r).dropWhile Char.isDigit = r := by
  rw [List.dropWhile_append_of_pos (List.all_eq_true.mp (all_isDigit_digits n))]
  cases r with
  | nil => rfl
  | cons c r => simp [hr c rfl]

/-- So it can be told from what comes after it. -/
theorem digits_append_inj {n m : Nat} (hr : ∀ c ∈ r.head?, c.isDigit = false)
    (hs : ∀ c ∈ s.head?, c.isDigit = false) (h : digits n ++ r = digits m ++ s) :
    n = m ∧ r = s := by
  have hdigits : digits n = digits m := by
    rw [← takeWhile_digits_append n hr, h, takeWhile_digits_append m hs]
  have hvalue : some n = some m := by rw [← readNat?_digits n, hdigits, readNat?_digits]
  exact ⟨Option.some.inj hvalue, List.append_cancel_left (hdigits ▸ h)⟩

end

end TensorIR.Numeral
