import TensorIR.Proofs.Shape.Notation

/-!
# Shapes as they are printed

A shape that is printed is read back as the same shape, whatever its rank and its dimensions are.
Neither the brackets nor the single space after each comma matter for that (`read_printed`), nor any
other white space around a dimension: the printed dimensions with commas between them are read as
the shape they were printed from, however they are spaced (`read_padded`).
-/

set_option autoImplicit false

namespace TensorIR.Shape

open Blank

/-- The item that is printed for a dimension. -/
def Literal.of : Dim → Literal
  | .dynamic => .dynamic
  | .static size => .numeral size.val

theorem Literal.dim_of (d : Dim) : (Literal.of d).dim = d := by
  cases d with
  | dynamic => rfl
  | static size => exact Dim.ofCode_code (.static size)

theorem spelled_render (d : Dim) : Spelled d.render.toList (Literal.of d) := by
  cases d with
  | dynamic => exact .dynamic
  | static size =>
    have hword : size.val < Numeral.wordBound := Nat.lt_trans size.isLt (by decide)
    have hdigits : (Dim.static size).render.toList = Numeral.digits size.val := by
      simp [Dim.render, Numeral.digits]
    rw [hdigits]
    exact readWord?_eq_some_iff.mp (Numeral.readWord?_digits hword)

/-- A printed dimension with white space around it. -/
def Padded (cs : List Char) (d : Dim) : Prop :=
  ∃ left right, Blanks left ∧ Blanks right ∧ cs = left ++ d.render.toList ++ right

theorem padded_render (d : Dim) : Padded d.render.toList d :=
  ⟨[], [], blanks_nil, blanks_nil, by simp⟩

theorem Padded.cons {cs : List Char} {d : Dim} {c : Char} (hc : isBlank c = true)
    (h : Padded cs d) : Padded (c :: cs) d := by
  obtain ⟨left, right, hleft, hright, rfl⟩ := h
  exact ⟨c :: left, right, List.forall_mem_cons.mpr ⟨hc, hleft⟩, hright, by simp⟩

theorem Padded.item {cs : List Char} {d : Dim} (h : Padded cs d) : Item cs (Literal.of d) := by
  obtain ⟨left, right, hleft, hright, rfl⟩ := h
  exact ⟨left, _, right, hleft, hright, spelled_render d, rfl⟩

/-- Printed dimensions are read back, in brackets or without them, however they are spaced. -/
theorem read_padded {s : Shape} {items : List (List Char)}
    (h : List.Forall₂ Padded items s.dims) :
    read (String.ofList ([','].intercalate items)) = .ok s ∧
      read (String.ofList (['['] ++ [','].intercalate items ++ [']'])) = .ok s := by
  have hdims : (s.dims.map Literal.of).map Literal.dim = s.dims := by
    rw [List.map_map]
    exact (List.map_congr_left fun d _ => Literal.dim_of d).trans (List.map_id' _)
  have hinner : Blanks ([','].intercalate items) ∧ s.dims.map Literal.of = [] ∨
      Listed ([','].intercalate items) (s.dims.map Literal.of) := by
    cases items with
    | nil =>
      rw [List.forall₂_nil_left_iff.mp h]
      exact .inl ⟨blanks_nil, rfl⟩
    | cons item items =>
      refine .inr (listed_intercalate (by simp) ?_)
      rw [List.forall₂_map_right_iff]
      exact h.imp fun _ _ hitem => hitem.item
  have hwritten : ∀ n : Nat, Written n n
      (List.replicate n '[' ++ [','].intercalate items ++ List.replicate n ']')
      (s.dims.map Literal.of) := fun n =>
    ⟨[], _, [], blanks_nil, blanks_nil, by simp, hinner⟩
  have hread : ∀ n : Nat, read (String.ofList
      (List.replicate n '[' ++ [','].intercalate items ++ List.replicate n ']')) = .ok s := fun n =>
    read_eq_ok_iff.mpr ⟨n, n, _, by rw [String.toList_ofList]; exact hwritten n, by rw [hdims]⟩
  exact ⟨by simpa using hread 0, by simpa using hread 1⟩

/-- The text without any of the given characters. -/
def without (dropped : List Char) (text : String) : String :=
  String.ofList (text.toList.filter (· ∉ dropped))

/-! ## What is printed -/

/-- The printed dimensions, with the same text between any two. -/
abbrev spaced (separator : List Char) (ds : List Dim) : List Char :=
  separator.intercalate (ds.map fun d => d.render.toList)

theorem toList_render (s : Shape) :
    s.render.toList = ['['] ++ spaced [',', ' '] s.dims ++ [']'] := by
  simp only [render, String.toList_append, String.toList_intercalate, List.map_map]
  rfl

/-- A space after a comma is white space before the next dimension. -/
theorem exists_items_of_spaced (ds : List Dim) : ∃ items,
    List.Forall₂ Padded items ds ∧ spaced [',', ' '] ds = [','].intercalate items := by
  induction ds with
  | nil => exact ⟨[], .nil, rfl⟩
  | cons d ds ih =>
    obtain ⟨items, hitems, heq⟩ := ih
    cases hitems with
    | nil => exact ⟨[_], .cons (padded_render d) .nil, by simp [spaced]⟩
    | @cons item d' items ds hitem hrest =>
      refine ⟨d.render.toList :: (' ' :: item) :: items,
        .cons (padded_render d) (.cons (hitem.cons (by decide)) hrest), ?_⟩
      simp only [spaced, List.map_cons, List.intercalate_cons_cons,
        List.intercalate_cons_cons_left] at heq ⊢
      rw [heq]
      simp

theorem padded_map_render (ds : List Dim) :
    List.Forall₂ Padded (ds.map fun d => d.render.toList) ds := by
  rw [List.forall₂_map_left_iff]
  exact List.forall₂_same.mpr fun d _ => padded_render d

/-- Of a printed dimension nothing is dropped. -/
theorem filter_spaced {dropped separator : List Char} (ds : List Dim)
    (h : ∀ c ∈ dropped, c ∈ ['[', ']', ' ']) :
    (spaced separator ds).filter (· ∉ dropped) =
      spaced (separator.filter (· ∉ dropped)) ds := by
  have hdim : ∀ d : Dim, d.render.toList.filter (· ∉ dropped) = d.render.toList := by
    intro d
    refine List.filter_eq_self.mpr fun c hc => decide_eq_true fun hmem => ?_
    obtain ⟨hblank, -, hopen, hclose⟩ := (spelled_render d).solid c hc
    have hbracket := h c hmem
    simp only [List.mem_cons, List.not_mem_nil, or_false] at hbracket
    rcases hbracket with rfl | rfl | rfl
    · exact hopen rfl
    · exact hclose rfl
    · exact absurd hblank (by decide)
  induction ds with
  | nil => rfl
  | cons d ds ih =>
    cases ds with
    | nil => simpa [spaced] using List.filter_eq_self.mp (hdim d)
    | cons d' ds =>
      simp only [spaced, List.map_cons, List.intercalate_cons_cons, List.filter_append] at ih ⊢
      rw [ih, hdim d]

/-- A printed shape is read back: as it is, without its brackets, without its spaces, without both,
and with any white space around any of its dimensions. -/
theorem read_printed (s : Shape) :
    read s.render = .ok s ∧
    read (without ['[', ']'] s.render) = .ok s ∧
    read (without [' '] s.render) = .ok s ∧
    read (without ['[', ']', ' '] s.render) = .ok s ∧
    ∀ items, List.Forall₂ Padded items s.dims →
      read (String.ofList ([','].intercalate items)) = .ok s ∧
        read (String.ofList (['['] ++ [','].intercalate items ++ [']'])) = .ok s := by
  obtain ⟨items, hitems, hspaced⟩ := exists_items_of_spaced s.dims
  have htight := padded_map_render s.dims
  have hwithout : ∀ {dropped : List Char}, (∀ c ∈ dropped, c ∈ ['[', ']', ' ']) →
      without dropped s.render = String.ofList (['['].filter (· ∉ dropped) ++
        spaced ([',', ' '].filter (· ∉ dropped)) s.dims ++ [']'].filter (· ∉ dropped)) := by
    intro dropped hdropped
    rw [without, toList_render, List.filter_append, List.filter_append,
      filter_spaced s.dims hdropped]
  refine ⟨?_, ?_, ?_, ?_, fun items hitems => read_padded hitems⟩
  case refine_1 =>
    rw [← String.ofList_toList (s := s.render), toList_render, hspaced]
    exact (read_padded hitems).2
  case refine_2 =>
    rw [hwithout (by simp)]
    simpa [hspaced] using (read_padded hitems).1
  case refine_3 =>
    rw [hwithout (by simp)]
    simpa using (read_padded htight).2
  case refine_4 =>
    rw [hwithout (by simp)]
    simpa using (read_padded htight).1

end TensorIR.Shape
