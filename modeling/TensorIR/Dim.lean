import TensorIR.Text.Numeral

/-!
# Dimensions

A dimension of a tensor is a size known when the program is compiled, or dynamic: known only when
it runs. As a word of 64 bits a dynamic dimension is the largest word, so a static size is any
smaller number; the type `Size` holds exactly those, and the two readings of a dimension
(`ofCode`, `code`) are inverse to each other.

Broadcasting merges two dimensions (`merge?`). The dimension one gives way to anything, a dynamic
dimension gives way to any static size, and two different static sizes other than one do not go
together. Deferring to the static side is safe because the program checks the dynamic one when it
runs.
-/

set_option autoImplicit false

namespace TensorIR

/-- The word that stands for a dynamic dimension. -/
abbrev dynamicCode : Nat := 18446744073709551615

/-- A size that is known: any word but the one for dynamic dimensions. -/
abbrev Size := Fin dynamicCode

/-- A dimension of a tensor. -/
inductive Dim where
  /-- Unknown until the program runs. -/
  | dynamic
  /-- Known when the program is compiled. -/
  | static (size : Size)
deriving DecidableEq, Repr

namespace Dim

/-- The dimension that broadcasts to any other. -/
def one : Dim := .static 1

/-- The dimension that a word stands for. -/
def ofCode (n : Nat) : Dim := if h : n < dynamicCode then .static ⟨n, h⟩ else .dynamic

/-- The word that stands for a dimension. -/
def code : Dim → Nat
  | .dynamic => dynamicCode
  | .static size => size.val

@[simp] theorem ofCode_code (d : Dim) : ofCode d.code = d := by
  cases d with
  | dynamic => rfl
  | static size => simp [ofCode, code]

theorem code_ofCode {n : Nat} (h : n < Numeral.wordBound) : (ofCode n).code = n := by
  simp only [Numeral.wordBound] at h
  unfold ofCode
  split
  · rfl
  · simp only [code, dynamicCode] at *
    omega

theorem code_lt (d : Dim) : d.code < Numeral.wordBound := by
  cases d with
  | dynamic => decide
  | static size => exact Nat.lt_trans size.isLt (by decide)

/-- The dimension that both operands broadcast to, if there is one. -/
def merge? (a b : Dim) : Option Dim :=
  if a = b ∨ b = one then some a
  else if a = one ∨ a = .dynamic then some b
  else if b = .dynamic then some a
  else none

/-- The size, or a question mark. -/
def render : Dim → String
  | .dynamic => "?"
  | .static size => toString size.val

end Dim

end TensorIR
