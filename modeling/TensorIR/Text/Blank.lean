/-!
# White space

The white space that a written shape may carry around its parts is Unicode's property
`White_Space`: 25 characters, the same in every version of the standard since 6.3. It is larger
than the ASCII blanks, which is what makes text pasted from a document acceptable.
-/

set_option autoImplicit false

namespace TensorIR.Blank

/-- The ranges of the property, ends included, in ascending order. -/
def ranges : List (Nat × Nat) := [
  (0x9, 0xd), (0x20, 0x20), (0x85, 0x85), (0xa0, 0xa0), (0x1680, 0x1680), (0x2000, 0x200a),
  (0x2028, 0x2029), (0x202f, 0x202f), (0x205f, 0x205f), (0x3000, 0x3000)]

/-- The character is white space. -/
def isBlank (c : Char) : Bool :=
  ranges.any fun r => r.1 ≤ c.toNat && c.toNat ≤ r.2

/-- The text without the white space at its two ends. -/
def trim (cs : List Char) : List Char :=
  ((cs.dropWhile isBlank).reverse.dropWhile isBlank).reverse

/-- A text with no white space at either end is its own trimming. -/
theorem trim_eq_self {cs : List Char} (hfirst : ∀ c ∈ cs.head?, isBlank c = false)
    (hlast : ∀ c ∈ cs.getLast?, isBlank c = false) : trim cs = cs := by
  have hdrop : ∀ ds : List Char, (∀ c ∈ ds.head?, isBlank c = false) →
      ds.dropWhile isBlank = ds := by
    intro ds hds
    cases ds with
    | nil => rfl
    | cons d ds => simp [List.dropWhile, hds d (by simp)]
  unfold trim
  rw [hdrop cs hfirst, hdrop cs.reverse (by simpa using hlast), List.reverse_reverse]

end TensorIR.Blank
