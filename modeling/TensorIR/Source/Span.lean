/-!
# Places in a source text

A place is a byte offset into the UTF-8 form of the source, and a span is the part between two of
them. For the reader an offset is turned into a line and a column, both counted from one; columns
count bytes, as offsets do.
-/

set_option autoImplicit false

namespace TensorIR

/-- The part of a source from one byte offset up to another. -/
structure Span where
  start : Nat
  stop : Nat
deriving DecidableEq, Repr

namespace Source

/-- The number of bytes of a text in UTF-8. -/
def byteLength : List Char → Nat
  | [] => 0
  | c :: cs => c.utf8Size + byteLength cs

/-- The text before a byte offset, if the offset lies between two characters. -/
def before? : List Char → Nat → Option (List Char)
  | _, 0 => some []
  | [], _ + 1 => none
  | c :: cs, n + 1 =>
    if c.utf8Size ≤ n + 1 then (before? cs (n + 1 - c.utf8Size)).map (c :: ·) else none

/-- The line and the column of a byte offset. An offset beyond the end counts as the end, and so
does one in the middle of a character. -/
def lineColumn (source : List Char) (offset : Nat) : Nat × Nat :=
  let text := (before? source offset).getD source
  (text.count '\n' + 1, byteLength (text.reverse.takeWhile (· ≠ '\n')) + 1)

@[simp] theorem byteLength_nil : byteLength [] = 0 := rfl

@[simp] theorem byteLength_cons (c : Char) (cs : List Char) :
    byteLength (c :: cs) = c.utf8Size + byteLength cs := rfl

@[simp] theorem byteLength_append (cs ds : List Char) :
    byteLength (cs ++ ds) = byteLength cs + byteLength ds := by
  induction cs with
  | nil => simp
  | cons c cs ih => simp [ih, Nat.add_assoc]

/-- The offset at the end of an initial part of the source leads back to that part. -/
theorem before?_append (cs ds : List Char) : before? (cs ++ ds) (byteLength cs) = some cs := by
  induction cs with
  | nil => simp [before?]
  | cons c cs ih =>
    have hpos : 0 < c.utf8Size := c.utf8Size_pos
    rw [List.cons_append, byteLength_cons]
    obtain ⟨n, hn⟩ : ∃ n, c.utf8Size + byteLength cs = n + 1 :=
      ⟨c.utf8Size + byteLength cs - 1, by omega⟩
    rw [hn, before?, if_pos (by omega), ← hn, Nat.add_sub_cancel_left, ih]
    rfl

end Source

end TensorIR
