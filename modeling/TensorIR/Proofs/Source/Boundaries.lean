import Mathlib.Data.List.TakeWhile
import Mathlib.Data.Prod.Lex
import TensorIR.Proofs.Source.Scanning

/-!
# Offsets between characters

Offsets count bytes, and a character may take several, so not every offset is one that a text can be
cut at. Those that are (`CharBoundary`) have a text before them, and their line and column are what
a reader of that text counts: the newlines so far, and the bytes since the last of them
(`exists_lastLine`).

One more character leads to a later place (`lt_advance`), on the same line or at the start of the
next. So places come in the order of offsets (`lineColumn_lt`), and no two offsets have the same.
-/

set_option autoImplicit false

namespace TensorIR.Source

variable {source before after text : List Char} {o o' : Nat}

/-! ## Boundaries -/

/-- The offset lies between two characters of the source, or at one of its ends. -/
def CharBoundary (source : List Char) (o : Nat) : Prop :=
  ∃ before after, source = before ++ after ∧ o = byteLength before

theorem charBoundary_append (before after : List Char) :
    CharBoundary (before ++ after) (byteLength before) := ⟨before, after, rfl, rfl⟩

theorem charBoundary_end (source : List Char) : CharBoundary source (byteLength source) :=
  ⟨source, [], (List.append_nil source).symm, rfl⟩

theorem CharBoundary.le (h : CharBoundary source o) : o ≤ byteLength source := by
  obtain ⟨before, after, rfl, rfl⟩ := h
  rw [byteLength_append]
  exact Nat.le_add_right ..

/-- A part of a source that starts and stops between characters. -/
structure Stretch (source : List Char) (span : Span) : Prop where
  ordered : span.start ≤ span.stop
  start : CharBoundary source span.start
  stop : CharBoundary source span.stop

theorem Stands.stretch {span : Span} (h : Stands source span before text after) :
    Stretch source span := by
  obtain ⟨rfl, hstart, hstop⟩ := h
  refine ⟨by omega, ?_, ?_⟩
  · rw [hstart, List.append_assoc]
    exact charBoundary_append _ _
  · rw [hstop, ← byteLength_append]
    exact charBoundary_append _ _

theorem stretch_end (source : List Char) :
    Stretch source ⟨byteLength source, byteLength source⟩ :=
  ⟨le_refl _, charBoundary_end source, charBoundary_end source⟩

/-- Of two initial parts of a source the one with more bytes goes on where the other ends. -/
theorem exists_between (h : CharBoundary source o) (h' : CharBoundary source o') (hle : o ≤ o') :
    ∃ before text after, source = before ++ text ++ after ∧ o = byteLength before ∧
      o' = byteLength (before ++ text) := by
  obtain ⟨before, after, hsource, rfl⟩ := h
  obtain ⟨upTo, after', hsource', rfl⟩ := h'
  rcases List.prefix_or_prefix_of_prefix ⟨after, hsource.symm⟩ ⟨after', hsource'.symm⟩ with
    ⟨text, rfl⟩ | ⟨text, rfl⟩
  · exact ⟨before, text, after', hsource', rfl, rfl⟩
  · -- The text has no more bytes, so it has no more characters.
    obtain rfl : text = [] := by
      by_contra hne
      have hpos := byteLength_pos hne
      rw [byteLength_append] at hle
      omega
    exact ⟨upTo, [], after', by simpa using hsource', by simp, by simp⟩

/-! ## Lines and columns -/

/-- The text ends with this line: there is no newline in it, and one before it unless it is all. -/
def LastLine (text line : List Char) : Prop :=
  '\n' ∉ line ∧ (text = line ∨ ∃ earlier, text = earlier ++ '\n' :: line)

/-- Where a reader who has read a text is, both counted from one. -/
def placeAfter (text : List Char) : Nat × Nat :=
  (text.count '\n' + 1, byteLength (text.reverse.takeWhile (· ≠ '\n')) + 1)

/-- Where a reader gets with one more character. -/
def advance (place : Nat × Nat) (c : Char) : Nat × Nat :=
  if c = '\n' then (place.1 + 1, 1) else (place.1, place.2 + c.utf8Size)

theorem lineColumn_append (before after : List Char) :
    lineColumn (before ++ after) (byteLength before) = placeAfter before := by
  simp only [lineColumn, before?_append, Option.getD_some, placeAfter]

theorem placeAfter_concat (text : List Char) (c : Char) :
    placeAfter (text ++ [c]) = advance (placeAfter text) c := by
  rw [placeAfter, advance, List.count_append, List.reverse_concat, List.takeWhile_cons]
  by_cases hc : c = '\n'
  · simp [hc, placeAfter]
  · simp [hc, placeAfter, Nat.add_comm, Nat.add_left_comm]

theorem placeAfter_append (before text : List Char) :
    placeAfter (before ++ text) = text.foldl advance (placeAfter before) := by
  induction text generalizing before with
  | nil => rw [List.append_nil, List.foldl_nil]
  | cons c text ih => rw [List.append_cons, ih, placeAfter_concat, List.foldl_cons]

theorem byteLength_reverse (text : List Char) : byteLength text.reverse = byteLength text := by
  induction text with
  | nil => rfl
  | cons c text ih => simp [ih, Nat.add_comm]

/-- A text ends with one line, and where its reader is can be told from that line. -/
theorem exists_lastLine (text : List Char) :
    ∃ line, LastLine text line ∧ placeAfter text = (1 + text.count '\n', 1 + byteLength line) := by
  refine ⟨(text.reverse.takeWhile (· ≠ '\n')).reverse, ⟨?_, ?_⟩, ?_⟩
  · intro hmem
    simpa using List.mem_takeWhile_imp (List.mem_reverse.mp hmem)
  · have hsplit := List.takeWhile_append_dropWhile (p := (· ≠ '\n')) (l := text.reverse)
    cases hrest : text.reverse.dropWhile (· ≠ '\n') with
    | nil =>
      rw [hrest, List.append_nil] at hsplit
      exact .inl (by rw [hsplit, List.reverse_reverse])
    | cons c rest =>
      have hc : c = '\n' := by
        have hfirst := List.head?_dropWhile_not (· ≠ '\n') text.reverse
        rw [hrest] at hfirst
        simpa using hfirst
      rw [hrest, hc] at hsplit
      refine .inr ⟨rest.reverse, ?_⟩
      have hreversed := congrArg List.reverse hsplit
      rw [List.reverse_append, List.reverse_cons, List.reverse_reverse, List.append_assoc]
        at hreversed
      exact hreversed.symm
  · rw [byteLength_reverse, placeAfter, Nat.add_comm, Nat.add_comm (byteLength _)]

/-! ## The order of places -/

theorem lt_advance (place : Nat × Nat) (c : Char) : toLex place < toLex (advance place c) := by
  rw [Prod.Lex.toLex_lt_toLex, advance]
  have hpos := c.utf8Size_pos
  split
  · exact .inl (Nat.lt_succ_self _)
  · exact .inr ⟨rfl, Nat.lt_add_of_pos_right hpos⟩

theorem le_foldl_advance (place : Nat × Nat) (text : List Char) :
    toLex place ≤ toLex (text.foldl advance place) := by
  induction text generalizing place with
  | nil => exact le_refl _
  | cons c text ih => exact (lt_advance place c).le.trans (ih _)

/-- A later offset has a later place. -/
theorem lineColumn_lt (h : CharBoundary source o) (h' : CharBoundary source o') (hlt : o < o') :
    toLex (lineColumn source o) < toLex (lineColumn source o') := by
  obtain ⟨before, text, after, rfl, rfl, rfl⟩ := exists_between h h' (Nat.le_of_lt hlt)
  rw [lineColumn_append, List.append_assoc, lineColumn_append, placeAfter_append]
  cases text with
  | nil =>
    rw [List.append_nil] at hlt
    exact absurd hlt (Nat.lt_irrefl _)
  | cons c text => exact (lt_advance _ c).trans_le (le_foldl_advance _ text)

/-- So the place tells the offset. -/
theorem lineColumn_inj (h : CharBoundary source o) (h' : CharBoundary source o')
    (heq : lineColumn source o = lineColumn source o') : o = o' := by
  rcases Nat.lt_trichotomy o o' with hlt | rfl | hlt
  · exact absurd (heq ▸ lineColumn_lt h h' hlt) (lt_irrefl _)
  · rfl
  · exact absurd (heq ▸ lineColumn_lt h' h hlt) (lt_irrefl _)

end TensorIR.Source
