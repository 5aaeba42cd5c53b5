import TensorIR.Text.Numeral

/-!
# The lines of a text

A text that was put together line by line falls apart into the same lines again, as long as no line
has a line break within it. What is written into a line has none if it is made of digits, or of
pieces that have none.
-/

set_option autoImplicit false

namespace TensorIR

/-- The lines of a text: what stands between its line breaks. -/
def lines (text : String) : List String := (text.toList.splitOn '\n').map String.ofList

/-- There is no line break in the text. -/
def Unbroken (text : String) : Prop := '\n' ∉ text.toList

instance (text : String) : Decidable (Unbroken text) := inferInstanceAs (Decidable (_ ∉ _))

theorem lines_append_break {text : String} (h : Unbroken text) (rest : String) :
    lines (text ++ "\n" ++ rest) = text :: lines rest := by
  have hfree : ∀ c ∈ text.toList, (c == '\n') = false := by
    intro c hc
    apply beq_eq_false_iff_ne.mpr
    rintro rfl
    exact h hc
  have hsplit := List.splitOnP_append_cons_of_forall_mem hfree '\n' (by decide) rest.toList
  have htext : (text ++ "\n" ++ rest).toList = text.toList ++ '\n' :: rest.toList := by simp
  rw [lines, htext, List.splitOn, hsplit, List.map_cons, String.ofList_toList]
  rfl

/-- After the last line break comes the empty line. -/
theorem lines_join {texts : List String} (h : ∀ text ∈ texts, Unbroken text) :
    lines (String.join (texts.map (· ++ "\n"))) = texts ++ [""] := by
  induction texts with
  | nil => rfl
  | cons text texts ih =>
    obtain ⟨hfirst, hrest⟩ := List.forall_mem_cons.mp h
    rw [List.map_cons, String.join_cons, lines_append_break hfirst, ih hrest, List.cons_append]

/-- Pieces that are texts of several lines each are put together like their lines. -/
theorem join_flatMap {α : Type} {xs : List α} {piece : α → String} {texts : α → List String}
    (h : ∀ x ∈ xs, piece x = String.join (texts x)) :
    String.join (xs.map piece) = String.join (xs.flatMap texts) := by
  induction xs with
  | nil => rfl
  | cons x xs ih =>
    obtain ⟨hfirst, hrest⟩ := List.forall_mem_cons.mp h
    rw [List.map_cons, String.join_cons, List.flatMap_cons, String.join_append, hfirst, ih hrest]

/-! ## What has no line break -/

theorem Unbroken.append {s t : String} (hs : Unbroken s) (ht : Unbroken t) : Unbroken (s ++ t) := by
  rw [Unbroken, String.toList_append, List.mem_append]
  exact not_or.mpr ⟨hs, ht⟩

theorem unbroken_number (n : Nat) : Unbroken (toString n) := by
  have hdigits : '\n' ∉ Numeral.digits n := Numeral.notMem_digits (by decide) n
  simpa [Unbroken, Numeral.digits] using hdigits

theorem unbroken_intercalate {separator : String} {texts : List String} (hs : Unbroken separator)
    (h : ∀ text ∈ texts, Unbroken text) : Unbroken (separator.intercalate texts) := by
  induction texts with
  | nil => simp [Unbroken]
  | cons text texts ih =>
    obtain ⟨hfirst, hrest⟩ := List.forall_mem_cons.mp h
    cases texts with
    | nil => simpa using hfirst
    | cons next texts =>
      rw [String.intercalate_cons_cons]
      exact (hfirst.append hs).append (ih hrest)

end TensorIR
