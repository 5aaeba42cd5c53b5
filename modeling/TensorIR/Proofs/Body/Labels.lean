import Mathlib.Algebra.Ring.Parity
import Mathlib.Data.List.DropRight
import TensorIR.Proofs.Body.Drawing

/-!
# Labels between quotes

In the drawing a label stands between double quotes, and only the quotes and the backslashes in it
decide where it ends for a reader: at the first quote that is not escaped. A text can stand between
quotes if this is the closing quote and no other (`Quotable`). The reader takes exactly these texts,
whatever comes after them (`readQuoted?_eq_some_iff`).

What a text between quotes stands for is a matter of its escapes. It stands for at most one label,
and a label is stood for by one text only, the one it is written as (`unescape_eq_some_iff`). So a
label comes out of the drawing as it went in, whatever backslashes it has in front of quotes and
line breaks, in front of an `n` or at its end.
-/

set_option autoImplicit false

namespace TensorIR.Dot

variable {c : Char} {cs written more rest s : List Char} {e : Expression}

/-! ## Escapes in a text -/

/-- The text ends inside an escape. Of the backslashes at its end, every second one is escaped by
the one before it, so if their number is odd, the last one escapes what comes next. -/
def EndsInEscape (written : List Char) : Prop := Odd (written.rtakeWhile (· == '\\')).length

theorem not_endsInEscape_nil : ¬ EndsInEscape [] := by
  simp [EndsInEscape]

theorem endsInEscape_concat_backslash (written : List Char) :
    EndsInEscape (written ++ ['\\']) ↔ ¬ EndsInEscape written := by
  rw [EndsInEscape, List.rtakeWhile_concat_pos _ _ _ rfl, List.length_append, List.length_singleton,
    Nat.odd_add_one, EndsInEscape]

theorem not_endsInEscape_concat (hc : c ≠ '\\') (written : List Char) :
    ¬ EndsInEscape (written ++ [c]) := by
  simp [EndsInEscape, hc]

theorem endsInEscape_backslash : EndsInEscape ['\\'] :=
  (endsInEscape_concat_backslash []).mpr not_endsInEscape_nil

/-- A backslash and what it escapes are complete. -/
theorem not_endsInEscape_pair (c : Char) : ¬ EndsInEscape ['\\', c] := by
  by_cases hc : c = '\\'
  · subst hc
    exact fun h => (endsInEscape_concat_backslash ['\\']).mp h endsInEscape_backslash
  · exact not_endsInEscape_concat hc ['\\']

/-- What is complete has no part in the escapes of what comes after it. -/
theorem endsInEscape_append (hwritten : ¬ EndsInEscape written) (more : List Char) :
    EndsInEscape (written ++ more) ↔ EndsInEscape more := by
  induction more using List.reverseRecOn with
  | nil => simp [hwritten, not_endsInEscape_nil]
  | append_singleton more c ih =>
    rw [← List.append_assoc]
    by_cases hc : c = '\\'
    · subst hc
      rw [endsInEscape_concat_backslash, endsInEscape_concat_backslash, ih]
    · exact iff_of_false (not_endsInEscape_concat hc _) (not_endsInEscape_concat hc _)

/-! ## Texts that can stand between quotes -/

/-- Between two quotes, the text is closed by the second one and by nothing before it. -/
structure Quotable (written : List Char) : Prop where
  /-- A quote in the text has a backslash in front of it that escapes it. -/
  escaped : ∀ before after, written = before ++ '"' :: after → EndsInEscape before
  /-- The closing quote does not become a part of the text. -/
  complete : ¬ EndsInEscape written

theorem quotable_nil : Quotable [] where
  escaped before after h := by simp at h
  complete := not_endsInEscape_nil

theorem quotable_pair (c : Char) : Quotable ['\\', c] where
  escaped before after h := by
    match before with
    | [] => simp at h
    | [d] =>
      obtain ⟨rfl, -⟩ := List.cons.inj h
      exact endsInEscape_backslash
    | _ :: _ :: _ => simp at h
  complete := not_endsInEscape_pair c

theorem quotable_singleton (hbackslash : c ≠ '\\') (hquote : c ≠ '"') : Quotable [c] where
  escaped before after h := by
    match before with
    | [] => exact absurd (List.cons.inj h).1 hquote
    | _ :: _ => simp at h
  complete := not_endsInEscape_concat hbackslash []

theorem not_quotable_quote (more : List Char) : ¬ Quotable ('"' :: more) :=
  fun h => not_endsInEscape_nil (h.escaped [] more rfl)

theorem Quotable.append (h : Quotable written) (hmore : Quotable more) :
    Quotable (written ++ more) where
  escaped before after heq := by
    -- The quote is in what was written before, or in what comes after it.
    obtain ⟨middle, hbefore, hafter⟩ | ⟨middle, hwritten, hafter⟩ :=
      List.append_eq_append_iff.mp heq
    · rw [hbefore, endsInEscape_append h.complete]
      exact hmore.escaped middle after hafter
    · cases middle with
      | nil => exact absurd (hafter ▸ hmore) (not_quotable_quote after)
      | cons d middle =>
        obtain ⟨rfl, -⟩ := List.cons.inj hafter
        exact h.escaped before middle hwritten
  complete := by
    rw [endsInEscape_append h.complete]
    exact hmore.complete

theorem Quotable.of_append (h : Quotable written) (hall : Quotable (written ++ more)) :
    Quotable more where
  escaped before after heq := by
    refine (endsInEscape_append h.complete before).mp (hall.escaped _ after ?_)
    rw [heq, List.append_assoc]
  complete hmore := hall.complete ((endsInEscape_append h.complete more).mpr hmore)

/-! ## Reading what is quoted -/

/-- What stands before the first quote that is not escaped, and what comes after that quote. -/
def untilQuote? : List Char → Option (List Char × List Char)
  | [] => none
  | ['\\'] => none
  | '"' :: rest => some ([], rest)
  | '\\' :: c :: more => (untilQuote? more).map fun (written, rest) => ('\\' :: c :: written, rest)
  | c :: more => (untilQuote? more).map fun (written, rest) => (c :: written, rest)

/-- The text between the quotes that a text starts with, as it is written, and what comes after the
closing quote. -/
def readQuoted? : List Char → Option (List Char × List Char)
  | '"' :: more => untilQuote? more
  | _ => none

/-- A reader that takes what can stand between quotes does so also when it first takes a piece that
can. -/
theorem Quotable.taken_iff {found : Option (List Char × List Char)} {piece : List Char}
    (h : Quotable piece) (hfound : ∀ {written}, found = some (written, rest) ↔
      more = written ++ '"' :: rest ∧ Quotable written) :
    (found.map fun (written, rest) => (piece ++ written, rest)) = some (written, rest) ↔
      piece ++ more = written ++ '"' :: rest ∧ Quotable written := by
  rw [Option.map_eq_some_iff]
  constructor
  · rintro ⟨⟨after, _⟩, hafter, heq⟩
    obtain ⟨rfl, rfl⟩ := Prod.mk.inj heq
    obtain ⟨rfl, hquotable⟩ := hfound.mp hafter
    exact ⟨(List.append_assoc _ _ _).symm, h.append hquotable⟩
  · rintro ⟨heq, hwritten⟩
    obtain ⟨after, rfl, hmore⟩ :
        ∃ after, written = piece ++ after ∧ more = after ++ '"' :: rest := by
      obtain ⟨after, hafter⟩ | ⟨middle, hpiece, hmiddle⟩ := List.append_eq_append_iff.mp heq
      · exact ⟨after, hafter⟩
      · cases middle with
        | nil => exact ⟨[], by simpa using hpiece.symm, hmiddle.symm⟩
        | cons d middle =>
          -- The closing quote is none of those in the piece, which are escaped.
          obtain ⟨rfl, -⟩ := List.cons.inj hmiddle
          exact absurd (h.escaped written middle hpiece) hwritten.complete
    exact ⟨(after, rest), hfound.mpr ⟨hmore, h.of_append hwritten⟩, rfl⟩

theorem untilQuote?_eq_some_iff :
    untilQuote? s = some (written, rest) ↔ s = written ++ '"' :: rest ∧ Quotable written := by
  fun_induction untilQuote? s generalizing written with
  | case1 => simp
  | case2 => simp [List.cons_eq_append_iff]
  | case3 more =>
    constructor
    · rintro ⟨⟩
      exact ⟨rfl, quotable_nil⟩
    · rintro ⟨heq, hwritten⟩
      cases written with
      | nil => rw [(List.cons.inj heq).2]
      | cons d written =>
        obtain ⟨rfl, -⟩ := List.cons.inj heq
        exact absurd hwritten (not_quotable_quote written)
  | case4 c more ih => exact (quotable_pair c).taken_iff ih
  | case5 c more hend hquote hpair ih =>
    have hbackslash : c ≠ '\\' := by
      rintro rfl
      cases more with
      | nil => exact hend rfl rfl
      | cons d more => exact hpair d more rfl rfl
    exact (quotable_singleton hbackslash hquote).taken_iff ih

/-- A reader takes the text between two quotes exactly if it can stand there. -/
theorem readQuoted?_eq_some_iff : readQuoted? s = some (written, rest) ↔
    s = '"' :: (written ++ '"' :: rest) ∧ Quotable written := by
  unfold readQuoted?
  split
  next more => rw [untilQuote?_eq_some_iff, List.cons_inj_right]
  next hnone =>
    refine iff_of_false (by simp) ?_
    rintro ⟨rfl, -⟩
    exact hnone _ rfl

/-! ## Escaping and its undoing -/

theorem quotable_escape (c : Char) : Quotable (escape c) := by
  unfold escape
  split_ifs with hquote hbackslash
  · exact quotable_pair '"'
  · exact quotable_pair '\\'
  · exact quotable_pair 'n'
  · exact quotable_singleton hbackslash hquote

theorem quotable_flatMap_escape (cs : List Char) : Quotable (cs.flatMap escape) := by
  induction cs with
  | nil => exact quotable_nil
  | cons c cs ih =>
    rw [List.flatMap_cons]
    exact (quotable_escape c).append ih

theorem unescape_escape_append (c : Char) (rest : List Char) :
    unescape (escape c ++ rest) = (unescape rest).map (c :: ·) := by
  unfold escape
  split_ifs with hquote hbackslash hbreak
  · rw [hquote]
    rfl
  · rw [hbackslash]
    rfl
  · rw [hbreak]
    rfl
  · -- The character stands for itself, so it is none of those that an escape is made for.
    have hself : ¬ (c = '\\' ∨ c = '"' ∨ c = '\n') := by simp [hquote, hbackslash, hbreak]
    rw [List.singleton_append, unescape, if_neg hself]
    all_goals simp [hbackslash]

theorem unescape_flatMap_escape (cs : List Char) : unescape (cs.flatMap escape) = some cs := by
  induction cs with
  | nil => rfl
  | cons c cs ih =>
    rw [List.flatMap_cons, unescape_escape_append, ih]
    rfl

theorem eq_flatMap_escape_of_unescape (h : unescape written = some cs) :
    written = cs.flatMap escape := by
  fun_induction unescape written generalizing cs with
  | case1 =>
    obtain rfl := Option.some.inj h
    rfl
  | case2 rest ih | case3 rest ih | case4 rest ih =>
    obtain ⟨ds, hds, rfl⟩ := Option.map_eq_some_iff.mp h
    rw [List.flatMap_cons, ← ih hds]
    rfl
  | case5 => cases h
  | case6 c rest _ _ _ hself ih =>
    obtain ⟨ds, hds, rfl⟩ := Option.map_eq_some_iff.mp h
    simp only [not_or] at hself
    have hescape : escape c = [c] := by simp [escape, hself]
    rw [List.flatMap_cons, ← ih hds, hescape]
    rfl

/-- A text stands for the characters that it is the writing of. -/
theorem unescape_eq_some_iff : unescape written = some cs ↔ written = cs.flatMap escape := by
  constructor
  · exact eq_flatMap_escape_of_unescape
  · rintro rfl
    exact unescape_flatMap_escape cs

/-! ## Labels in a drawing -/

theorem toList_escapeLabel (text : String) :
    (escapeLabel text).toList = text.toList.flatMap escape :=
  String.toList_ofList

theorem unescape_eq_label_iff {text : String} :
    unescape written = some text.toList ↔ written = (escapeLabel text).toList := by
  rw [unescape_eq_some_iff, toList_escapeLabel]

theorem escapeLabel_inj {text other : String} (h : escapeLabel other = escapeLabel text) :
    other = text := by
  have hother : unescape (escapeLabel text).toList = some other.toList := by
    rw [unescape_eq_label_iff, h]
  have htext : unescape (escapeLabel text).toList = some text.toList := by
    rw [unescape_eq_label_iff]
  exact String.toList_injective (Option.some.inj (hother.symm.trans htext))

theorem quote_notMem_style (role : Option BoundaryRole) :
    '"' ∉ (style role).1.toList ∧ '"' ∉ (style role).2.toList := by
  rcases role with _ | ⟨_ | _, _⟩ <;> simp [style]

/-- The first quote in the line of an expression opens its label, and the line ends soon after the
label does. -/
theorem exists_nodeLine (he : e.id.isSome) : ∃ margin, '"' ∉ margin ∧ (nodeLine e).toList =
    margin ++ '"' :: ((escapeLabel (label e)).toList ++ '"' :: "];\n".toList) := by
  obtain ⟨id, hid⟩ := Option.isSome_iff_exists.mp he
  obtain ⟨houtline, hcolour⟩ := quote_notMem_style e.role
  have hdigits : '"' ∉ Numeral.digits id.index := Numeral.notMem_digits (by decide) _
  refine ⟨"    e".toList ++ (Numeral.digits id.index ++ (" [shape=".toList ++
    ((style e.role).1.toList ++ (", style=filled, fillcolor=".toList ++
      ((style e.role).2.toList ++ ", label=".toList))))), ?_, ?_⟩
  · simp [houtline, hcolour, hdigits]
  · rw [nodeLine_eq hid, String.toList_append, toList_nodeText]
    simp

/-- A label between quotes, as it is written in a drawing, is closed by the quote that is meant to
close it, whatever comes after it: each quote within is escaped and no escape is left open. It has
no line break, and undoing the escapes gives back the label. No other text stands for the label and
no other label is written like it, so nothing is lost. The line of an expression that has the label
shows it in this way. -/
theorem label_read_back (text : String) (rest : List Char) :
    readQuoted? ('"' :: ((escapeLabel text).toList ++ '"' :: rest)) =
        some ((escapeLabel text).toList, rest) ∧
      Quotable (escapeLabel text).toList ∧ Unbroken (escapeLabel text) ∧
      (∀ written, unescape written = some text.toList ↔ written = (escapeLabel text).toList) ∧
      (∀ other, escapeLabel other = escapeLabel text ↔ other = text) ∧
      ∀ e : Expression, e.id.isSome → label e = text →
        readQuoted? ((nodeLine e).toList.dropWhile (· != '"')) =
          some ((escapeLabel text).toList, "];\n".toList) := by
  have hquotable : Quotable (escapeLabel text).toList := by
    rw [toList_escapeLabel]
    exact quotable_flatMap_escape text.toList
  refine ⟨readQuoted?_eq_some_iff.mpr ⟨rfl, hquotable⟩, hquotable, unbroken_escapeLabel text,
    fun written => unescape_eq_label_iff, fun other => ⟨escapeLabel_inj, congrArg escapeLabel⟩, ?_⟩
  rintro e he rfl
  obtain ⟨margin, hmargin, hline⟩ := exists_nodeLine he
  have hskipped : ∀ c ∈ margin, (c != '"') = true := by
    intro c hc
    simpa using ne_of_mem_of_not_mem hc hmargin
  rw [hline, List.dropWhile_append_of_pos hskipped]
  exact readQuoted?_eq_some_iff.mpr ⟨rfl, hquotable⟩

/-- A result in two loops, with backslashes, a quote and a line break in its name. -/
def oddlyNamed : Expression where
  id := some ⟨0⟩
  node := .make "\\\"\\n\n\\" .result
  inputs := [⟨⟨0⟩, .ofShape .scalar⟩]
  outputs := []
  emitter := none
  loops := [1, 2]
  strategy := none
  role := none
  length_inputs := rfl
  length_outputs := rfl

/-- The quote in the name is escaped by the last of three backslashes, and the backslash before an
`n` is told from the line break. -/
theorem label_read_back_oddlyNamed :
    oddlyNamed.id.isSome ∧ label oddlyNamed = "\\\"\\n\n\\\nResult\nloops [1, 2]" ∧
      escapeLabel (label oddlyNamed) =
        "\\\\\\\"\\\\n\\n\\\\\\nResult\\nloops [1, 2]" ∧
      EndsInEscape ['\\', '\\', '\\'] ∧
      unescape (escapeLabel (label oddlyNamed)).toList = some (label oddlyNamed).toList ∧
      readQuoted? ((nodeLine oddlyNamed).toList.dropWhile (· != '"')) =
        some ((escapeLabel (label oddlyNamed)).toList, "];\n".toList) := by
  obtain ⟨-, hquotable, -, hread, -, hlines⟩ := label_read_back (label oddlyNamed) []
  have hquote : (escapeLabel (label oddlyNamed)).toList = ['\\', '\\', '\\'] ++
      '"' :: "\\\\n\\n\\\\\\nResult\\nloops [1, 2]".toList := by decide
  exact ⟨rfl, by decide, by decide, hquotable.escaped _ _ hquote, (hread _).mpr rfl,
    hlines oddlyNamed rfl rfl⟩

end TensorIR.Dot
