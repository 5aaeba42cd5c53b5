import Mathlib.Data.List.Forall2
import TensorIR.Proofs.Except
import TensorIR.Proofs.Text.Trimming
import TensorIR.Shape.Written

/-!
# The notation of shapes

What a written shape is meant to be is said here without the reader: a list of items with commas
between them, each a question mark or the numeral of a word with white space around it, either bare
or between one pair of brackets (`Documented`). The reader takes more than that. It drops every
bracket at the front and every bracket at the back without asking whether they are as many, and the
largest word is read as the dynamic dimension.

`read_exact` says how much more: the texts that are read are the lists between any number of opening
and any number of closing brackets, each documented text has its own meaning, and of the texts that
are read those are documented that have no bracket, or one of each.
-/

set_option autoImplicit false

namespace TensorIR.Shape

open Blank

/-! ## Items -/

/-- What an item of a written shape says. -/
inductive Literal where
  | dynamic
  | numeral (n : Nat)
deriving DecidableEq, Repr

/-- The dimension that is read for it. -/
def Literal.dim : Literal → Dim
  | .dynamic => .dynamic
  | .numeral n => .ofCode n

/-- The characters spell the literal: a question mark, or the decimal digits of a word, after at
most one plus. -/
inductive Spelled : List Char → Literal → Prop
  | dynamic : Spelled ['?'] .dynamic
  | numeral {sign digits : List Char} : sign = [] ∨ sign = ['+'] → digits ≠ [] →
      (∀ c ∈ digits, c.isDigit = true) → Nat.ofDigitChars 10 digits 0 < Numeral.wordBound →
      Spelled (sign ++ digits) (.numeral (Nat.ofDigitChars 10 digits 0))

/-- A literal with white space around it. -/
def Item (cs : List Char) (lit : Literal) : Prop :=
  ∃ left word right, Blanks left ∧ Blanks right ∧ Spelled word lit ∧ cs = left ++ word ++ right

/-- One item or more with commas between them. -/
inductive Listed : List Char → List Literal → Prop
  | last {cs : List Char} {lit : Literal} : Item cs lit → Listed cs [lit]
  | more {cs rest : List Char} {lit : Literal} {lits : List Literal} : Item cs lit →
      Listed rest lits → Listed (cs ++ ',' :: rest) (lit :: lits)

/-- A list of items that may be empty, between so many opening and so many closing brackets. -/
def Written (opening closing : Nat) (cs : List Char) (lits : List Literal) : Prop :=
  ∃ left inner right, Blanks left ∧ Blanks right ∧
    cs = left ++ List.replicate opening '[' ++ inner ++ List.replicate closing ']' ++ right ∧
    (Blanks inner ∧ lits = [] ∨ Listed inner lits)

/-- The notation as it is described: bare, or between one pair of brackets. -/
def Documented (text : String) (lits : List Literal) : Prop :=
  Written 0 0 text.toList lits ∨ Written 1 1 text.toList lits

/-! ## Dropping from both ends -/

theorem unbracket_eq (cs : List Char) :
    unbracket cs =
      ((((((cs.dropWhile isBlank).dropWhile (· == '[')).dropWhile isBlank).rdropWhile
        isBlank).rdropWhile (· == ']')).rdropWhile isBlank) := by
  have hfold : unbracket cs =
      trim (((trim cs).dropWhile (· == '[')).rdropWhile (· == ']')) := rfl
  simp only [hfold, trim_eq, dropWhile_rdropWhile]

/-- What is found within brackets, be they balanced or not. -/
theorem unbracket_of_brackets {left inner right : List Char} (opening closing : Nat)
    (hleft : Blanks left) (hright : Blanks right) (hopen : '[' ∉ inner) (hclose : ']' ∉ inner) :
    unbracket (left ++ List.replicate opening '[' ++ inner ++ List.replicate closing ']' ++ right) =
      trim inner := by
  have hblank : '[' ∉ right := fun hmem => absurd (hright _ hmem) (by decide)
  have hrest : '[' ∉ inner ++ (List.replicate closing ']' ++ right) := by
    simp [hopen, hblank]
  have htext : left ++ List.replicate opening '[' ++ inner ++ List.replicate closing ']' ++ right =
      left ++ List.replicate opening '[' ++
        (inner ++ (List.replicate closing ']' ++ right)) := by
    simp only [List.append_assoc]
  rw [unbracket_eq, htext, dropWhile_brackets opening hleft (by decide) hrest]
  simp only [← dropWhile_rdropWhile]
  rw [← List.append_assoc, rdropWhile_brackets closing hright (by decide) hclose,
    dropWhile_rdropWhile, trim_eq]

/-! ## White space around an item -/

theorem Spelled.ne_nil {word : List Char} {lit : Literal} (h : Spelled word lit) : word ≠ [] := by
  cases h with
  | dynamic => simp
  | numeral _ hne _ _ => exact List.append_ne_nil_of_right_ne_nil _ hne

/-- There is neither white space nor a separator within a literal. -/
theorem Spelled.solid {word : List Char} {lit : Literal} (h : Spelled word lit) :
    ∀ c ∈ word, isBlank c = false ∧ c ≠ ',' ∧ c ≠ '[' ∧ c ≠ ']' := by
  intro c hc
  cases h with
  | dynamic =>
    rw [List.mem_singleton.mp hc]
    decide
  | numeral hsign _ hdigits _ =>
    rcases List.mem_append.mp hc with hmem | hmem
    · rcases hsign with rfl | rfl
      · cases hmem
      · rw [List.mem_singleton.mp hmem]
        decide
    · have hdigit := hdigits c hmem
      refine ⟨isBlank_of_isDigit hdigit, ?_, ?_, ?_⟩ <;> rintro rfl <;>
        exact absurd hdigit (by decide)

theorem Spelled.trim_eq {word : List Char} {lit : Literal} (h : Spelled word lit) :
    trim word = word :=
  Blank.trim_eq_self (fun c hc => (h.solid c (List.mem_of_mem_head? hc)).1)
    (fun c hc => (h.solid c (List.mem_of_getLast? hc)).1)

theorem item_iff {cs : List Char} {lit : Literal} : Item cs lit ↔ Spelled (trim cs) lit := by
  constructor
  · rintro ⟨left, word, right, hleft, hright, hword, rfl⟩
    rwa [trim_append hleft hright, hword.trim_eq]
  · intro h
    obtain ⟨left, right, hleft, hright, hcs⟩ := exists_trim cs
    exact ⟨left, trim cs, right, hleft, hright, h, hcs⟩

theorem item_pad_iff {left right : List Char} (hleft : Blanks left) (hright : Blanks right)
    {cs : List Char} {lit : Literal} : Item (left ++ cs ++ right) lit ↔ Item cs lit := by
  rw [item_iff, item_iff, trim_append hleft hright]

theorem Item.solid {cs : List Char} {lit : Literal} (h : Item cs lit) :
    ∀ c ∈ cs, c ≠ ',' ∧ c ≠ '[' ∧ c ≠ ']' := by
  obtain ⟨left, word, right, hleft, hright, hword, rfl⟩ := h
  have hblank : ∀ c, isBlank c = true → c ≠ ',' ∧ c ≠ '[' ∧ c ≠ ']' := by
    intro c hc
    refine ⟨?_, ?_, ?_⟩ <;> rintro rfl <;> exact absurd hc (by decide)
  intro c hc
  rcases List.mem_append.mp hc with hc | hc
  · rcases List.mem_append.mp hc with hc | hc
    · exact hblank c (hleft c hc)
    · exact (hword.solid c hc).2
  · exact hblank c (hright c hc)

/-! ## Lists of items -/

theorem Listed.ne_nil {cs : List Char} {lits : List Literal} (h : Listed cs lits) : cs ≠ [] := by
  cases h with
  | last hitem =>
    obtain ⟨left, word, right, -, -, hword, rfl⟩ := hitem
    simp [hword.ne_nil]
  | more => simp

theorem Listed.no_bracket {cs : List Char} {lits : List Literal} (h : Listed cs lits) :
    '[' ∉ cs ∧ ']' ∉ cs := by
  induction h with
  | last hitem =>
    exact ⟨fun hmem => (hitem.solid _ hmem).2.1 rfl, fun hmem => (hitem.solid _ hmem).2.2 rfl⟩
  | more hitem _ ih =>
    simp only [List.mem_append, List.mem_cons, not_or]
    exact ⟨⟨fun hmem => (hitem.solid _ hmem).2.1 rfl, by decide, ih.1⟩,
      ⟨fun hmem => (hitem.solid _ hmem).2.2 rfl, by decide, ih.2⟩⟩

theorem listed_left_iff {left : List Char} (hleft : Blanks left) {cs : List Char}
    {lits : List Literal} : Listed (left ++ cs) lits ↔ Listed cs lits := by
  have hitem : ∀ {as lit}, Item (left ++ as) lit ↔ Item as lit := by
    intro as lit
    simpa using item_pad_iff hleft blanks_nil
  constructor
  · generalize htext : left ++ cs = text
    intro h
    cases h with
    | last h => exact .last (hitem.mp (htext ▸ h))
    | more h hrest =>
      rcases List.append_eq_append_iff.mp htext with ⟨as, rfl, rfl⟩ | ⟨as, rfl, htail⟩
      · exact .more (hitem.mp h) hrest
      · cases as with
        | nil =>
          rw [List.nil_append] at htail
          rw [← htail]
          exact @Listed.more [] _ _ _ (hitem.mp (by simpa using h)) hrest
        | cons c as =>
          rw [List.cons_append, List.cons_eq_cons] at htail
          exact absurd (htail.1 ▸ by simp) (hleft.not_mem (c := ',') (by decide))
  · intro h
    cases h with
    | last h => exact .last (hitem.mpr h)
    | more h hrest =>
      rw [← List.append_assoc]
      exact .more (hitem.mpr h) hrest

theorem listed_right_iff {right : List Char} (hright : Blanks right) {cs : List Char}
    {lits : List Literal} : Listed (cs ++ right) lits ↔ Listed cs lits := by
  have hitem : ∀ {as lit}, Item (as ++ right) lit ↔ Item as lit := by
    intro as lit
    simpa using item_pad_iff blanks_nil hright
  constructor
  · generalize htext : cs ++ right = text
    intro h
    induction h generalizing cs with
    | last h => exact .last (hitem.mp (htext ▸ h))
    | more h _ ih =>
      have hcomma : ',' ∉ right := hright.not_mem (by decide)
      rcases List.append_eq_append_iff.mp htext with ⟨as, rfl, rfl⟩ | ⟨as, rfl, htail⟩
      · exact absurd (by simp) hcomma
      · cases as with
        | nil =>
          rw [List.nil_append] at htail
          exact absurd (htail ▸ by simp) hcomma
        | cons c as =>
          rw [List.cons_append, List.cons_eq_cons] at htail
          obtain ⟨rfl, hrest⟩ := htail
          exact .more h (ih hrest.symm)
  · intro h
    induction h with
    | last h => exact .last (hitem.mpr h)
    | more h _ ih =>
      rw [List.append_assoc, List.cons_append]
      exact .more h ih

theorem listed_trim_iff {cs : List Char} {lits : List Literal} :
    Listed (trim cs) lits ↔ Listed cs lits := by
  obtain ⟨left, right, hleft, hright, hcs⟩ := exists_trim cs
  conv_rhs => rw [hcs, listed_right_iff hright, listed_left_iff hleft]

/-! ## What is read -/

theorem splitAt_eq_splitOn (separator : Char) (cs : List Char) :
    splitAt separator cs = cs.splitOn separator := by
  induction cs with
  | nil => rfl
  | cons c cs ih =>
    rw [splitAt, List.splitOn_cons_eq_if_modifyHead, ih]
    by_cases hc : c = separator
    · rw [if_pos hc, if_pos (beq_iff_eq.mpr hc)]
    · rw [if_neg hc, if_neg (by simpa using hc)]
      cases hpieces : cs.splitOn separator with
      | nil => exact absurd hpieces (List.splitOn_ne_nil separator cs)
      | cons piece pieces => rfl

/-- Items put together with commas are a list of them. -/
theorem listed_intercalate {items : List (List Char)} {lits : List Literal} (hne : items ≠ [])
    (h : List.Forall₂ Item items lits) : Listed ([','].intercalate items) lits := by
  induction h with
  | nil => exact absurd rfl hne
  | @cons item lit items lits hitem hrest ih =>
    cases items with
    | nil =>
      cases hrest
      rw [List.intercalate_singleton]
      exact .last hitem
    | cons next items =>
      rw [List.intercalate_cons_cons, List.append_assoc, List.singleton_append]
      exact .more hitem (ih (by simp))

theorem listed_iff {cs : List Char} {lits : List Literal} :
    Listed cs lits ↔ List.Forall₂ Item (splitAt ',' cs) lits := by
  rw [splitAt_eq_splitOn]
  constructor
  · intro h
    have hone : ∀ {as lit}, Item as lit → as.splitOn ',' = [as] := fun hitem =>
      List.splitOn_eq_singleton fun hmem => (hitem.solid _ hmem).1 rfl
    induction h with
    | last hitem =>
      rw [hone hitem]
      exact .cons hitem .nil
    | more hitem _ ih =>
      rw [List.splitOn_append_cons_of_beq _ _ (beq_self_eq_true ','), hone hitem]
      exact .cons hitem ih
  · intro h
    have hcs : [','].intercalate (cs.splitOn ',') = cs := List.intercalate_splitOn ','
    rw [← hcs]
    exact listed_intercalate (List.splitOn_ne_nil ',' cs) h

theorem readNat?_word_iff {ds : List Char} {n : Nat} :
    (Numeral.readNat? ds).filter (· < Numeral.wordBound) = some n ↔
      ds ≠ [] ∧ (∀ c ∈ ds, c.isDigit = true) ∧ Nat.ofDigitChars 10 ds 0 = n ∧
        n < Numeral.wordBound := by
  simp only [Option.filter_eq_some_iff, Numeral.readNat?, decide_eq_true_eq, Bool.and_eq_true,
    Bool.not_eq_eq_eq_not, Bool.not_true, List.isEmpty_eq_false_iff, List.all_eq_true,
    Option.ite_none_right_eq_some, Option.some.injEq, and_assoc]

theorem readWord?_eq_some_iff {cs : List Char} {n : Nat} :
    Numeral.readWord? cs = some n ↔ Spelled cs (.numeral n) := by
  unfold Numeral.readWord?
  constructor
  · intro h
    split at h
    next rest =>
      obtain ⟨hne, hdigits, rfl, hbound⟩ := readNat?_word_iff.mp h
      exact @Spelled.numeral ['+'] rest (.inr rfl) hne hdigits hbound
    next =>
      obtain ⟨hne, hdigits, rfl, hbound⟩ := readNat?_word_iff.mp h
      exact @Spelled.numeral [] cs (.inl rfl) hne hdigits hbound
  · intro h
    cases h with
    | numeral hsign hne hdigits hbound =>
      refine readNat?_word_iff.mpr ?_
      rcases hsign with rfl | rfl
      · rw [List.nil_append]
        split
        next rest => exact absurd (hdigits '+' (by simp)) (by decide)
        next => exact ⟨hne, hdigits, rfl, hbound⟩
      · exact ⟨hne, hdigits, rfl, hbound⟩

theorem readDim?_eq_some_iff {cs : List Char} {d : Dim} :
    readDim? cs = some d ↔ ∃ lit, Spelled cs lit ∧ d = lit.dim := by
  unfold readDim?
  by_cases hmark : cs = ['?']
  · rw [if_pos hmark]
    constructor
    · intro h
      exact ⟨.dynamic, hmark ▸ .dynamic, (Option.some.inj h).symm⟩
    · rintro ⟨lit, hlit, rfl⟩
      cases lit with
      | dynamic => rfl
      | numeral n =>
        rw [hmark, ← readWord?_eq_some_iff] at hlit
        cases hlit
  · rw [if_neg hmark, Option.map_eq_some_iff]
    constructor
    · rintro ⟨n, hn, rfl⟩
      exact ⟨.numeral n, readWord?_eq_some_iff.mp hn, rfl⟩
    · rintro ⟨lit, hlit, rfl⟩
      cases lit with
      | dynamic =>
        cases hlit
        exact absurd rfl hmark
      | numeral n => exact ⟨n, readWord?_eq_some_iff.mpr hlit, rfl⟩

theorem readDims_eq_ok_iff {items : List (List Char)} {dims : List Dim} :
    readDims items = .ok dims ↔
      ∃ lits, List.Forall₂ Item items lits ∧ dims = lits.map Literal.dim := by
  induction items generalizing dims with
  | nil => simp [readDims, eq_comm]
  | cons item items ih =>
    rw [readDims]
    constructor
    · intro h
      split at h
      case h_1 => cases h
      case h_2 d hd =>
        obtain ⟨lit, hlit, rfl⟩ := readDim?_eq_some_iff.mp hd
        obtain ⟨rest, hrest, rfl⟩ := map_eq_ok_iff.mp h
        obtain ⟨lits, hlits, rfl⟩ := ih.mp hrest
        exact ⟨lit :: lits, .cons (item_iff.mpr hlit) hlits, rfl⟩
    · rintro ⟨lits, hlits, rfl⟩
      cases hlits with
      | @cons _ lit _ lits hitem hrest =>
        have hd := readDim?_eq_some_iff.mpr ⟨lit, item_iff.mp hitem, rfl⟩
        rw [hd, ih.mpr ⟨lits, hrest, rfl⟩]
        rfl

/-- The text is what is found within the brackets, and what was dropped around it. -/
theorem exists_unbracket (cs : List Char) :
    ∃ left opening inner closing right, Blanks left ∧ Blanks right ∧
      cs = left ++ List.replicate opening '[' ++ inner ++ List.replicate closing ']' ++ right ∧
      trim inner = unbracket cs := by
  obtain ⟨left, right, hleft, hright, hcs⟩ := exists_trim cs
  obtain ⟨opening, hopen⟩ := exists_replicate_dropWhile '[' (trim cs)
  obtain ⟨closing, hclose⟩ := exists_rdropWhile_replicate ']' ((trim cs).dropWhile (· == '['))
  refine ⟨left, opening, _, closing, right, hleft, hright, ?_, rfl⟩
  conv_lhs => rw [hcs, hopen, hclose]
  simp only [List.append_assoc]
  rfl

theorem read_unbracketed_iff {text : String} {s : Shape} :
    read text = .ok s ↔
      unbracket text.toList = [] ∧ s = scalar ∨
        ∃ lits, Listed (unbracket text.toList) lits ∧ s = ⟨lits.map Literal.dim⟩ := by
  rw [read]
  by_cases hempty : unbracket text.toList = []
  · have hnone : ¬ ∃ lits, Listed (unbracket text.toList) lits ∧ s = ⟨lits.map Literal.dim⟩ :=
      fun ⟨_, hlisted, _⟩ => hlisted.ne_nil hempty
    simp only [hempty, List.isEmpty_nil, if_true, Except.ok.injEq, eq_comm (a := scalar), true_and]
    rw [hempty] at hnone
    exact (or_iff_left hnone).symm
  · simp only [List.isEmpty_iff, hempty, if_false, false_and, false_or, listed_iff]
    constructor
    · intro h
      split at h
      case h_1 dims hdims =>
        obtain ⟨lits, hlits, rfl⟩ := readDims_eq_ok_iff.mp hdims
        exact ⟨lits, hlits, (Except.ok.inj h).symm⟩
      case h_2 => cases h
    · rintro ⟨lits, hlits, rfl⟩
      rw [readDims_eq_ok_iff.mpr ⟨lits, hlits, rfl⟩]

/-- What is read are the lists between any number of opening and any number of closing brackets. -/
theorem read_eq_ok_iff {text : String} {s : Shape} :
    read text = .ok s ↔
      ∃ opening closing lits, Written opening closing text.toList lits ∧
        s = ⟨lits.map Literal.dim⟩ := by
  rw [read_unbracketed_iff]
  constructor
  · obtain ⟨left, opening, inner, closing, right, hleft, hright, htext, hinner⟩ :=
      exists_unbracket text.toList
    rw [← hinner]
    rintro (⟨hempty, rfl⟩ | ⟨lits, hlits, rfl⟩)
    · exact ⟨opening, closing, [], ⟨left, inner, right, hleft, hright, htext,
        .inl ⟨trim_eq_nil_iff.mp hempty, rfl⟩⟩, rfl⟩
    · exact ⟨opening, closing, lits, ⟨left, inner, right, hleft, hright, htext,
        .inr (listed_trim_iff.mp hlits)⟩, rfl⟩
  · rintro ⟨opening, closing, lits, ⟨left, inner, right, hleft, hright, htext, hinner⟩, rfl⟩
    rcases hinner with ⟨hblank, rfl⟩ | hlisted
    · have hunbracket := unbracket_of_brackets opening closing hleft hright
        (hblank.not_mem (by decide)) (hblank.not_mem (by decide))
      exact .inl ⟨by rw [htext, hunbracket, trim_eq_nil_iff.mpr hblank], rfl⟩
    · have hunbracket := unbracket_of_brackets opening closing hleft hright
        hlisted.no_bracket.1 hlisted.no_bracket.2
      exact .inr ⟨lits, by rw [htext, hunbracket]; exact listed_trim_iff.mpr hlisted, rfl⟩

/-! ## What more is read than the notation has -/

theorem Written.count {opening closing : Nat} {cs : List Char} {lits : List Literal}
    (h : Written opening closing cs lits) : cs.count '[' = opening ∧ cs.count ']' = closing := by
  obtain ⟨left, inner, right, hleft, hright, rfl, hinner⟩ := h
  have hfree : ∀ b : Char, isBlank b = false → left.count b = 0 ∧ right.count b = 0 := fun b hb =>
    ⟨List.count_eq_zero.mpr (hleft.not_mem hb), List.count_eq_zero.mpr (hright.not_mem hb)⟩
  have hsolid : '[' ∉ inner ∧ ']' ∉ inner := by
    rcases hinner with ⟨hblank, -⟩ | hlisted
    · exact ⟨hblank.not_mem (by decide), hblank.not_mem (by decide)⟩
    · exact hlisted.no_bracket
  obtain ⟨hopen, hclose⟩ := And.intro (hfree '[' (by decide)) (hfree ']' (by decide))
  simp only [List.count_append, List.count_replicate, List.count_eq_zero.mpr hsolid.1,
    List.count_eq_zero.mpr hsolid.2, hopen.1, hopen.2, hclose.1, hclose.2]
  exact ⟨by simp, by simp⟩

theorem Documented.read_eq {text : String} {lits : List Literal} (h : Documented text lits) :
    read text = .ok ⟨lits.map Literal.dim⟩ := by
  rcases h with h | h
  · exact read_eq_ok_iff.mpr ⟨0, 0, lits, h, rfl⟩
  · exact read_eq_ok_iff.mpr ⟨1, 1, lits, h, rfl⟩

/-- Of the texts that are read, those are documented whose brackets are none or one of each. -/
theorem documented_iff_of_read {text : String} {s : Shape} (h : read text = .ok s) :
    (∃ lits, Documented text lits) ↔
      text.toList.count '[' = text.toList.count ']' ∧ text.toList.count '[' ≤ 1 := by
  constructor
  · rintro ⟨lits, hlits | hlits⟩
    all_goals
      obtain ⟨hopen, hclose⟩ := hlits.count
      omega
  · rintro ⟨heq, hle⟩
    obtain ⟨opening, closing, lits, hlits, -⟩ := read_eq_ok_iff.mp h
    obtain ⟨hopen, hclose⟩ := hlits.count
    obtain rfl : closing = opening := by omega
    refine ⟨lits, ?_⟩
    cases closing with
    | zero => exact .inl hlits
    | succ n =>
      obtain rfl : n = 0 := by omega
      exact .inr hlits

/-- The largest word is the one numeral that is read as the dynamic dimension. -/
theorem Spelled.dim_eq_dynamic_iff {word : List Char} {lit : Literal} (h : Spelled word lit) :
    lit.dim = .dynamic ↔ lit = .dynamic ∨ lit = .numeral dynamicCode := by
  cases h with
  | dynamic => simp [Literal.dim]
  | numeral _ _ _ hbound =>
    simp only [Literal.dim, Dim.ofCode, Numeral.wordBound, dynamicCode, Literal.numeral.injEq,
      reduceCtorEq, false_or] at *
    split
    · simp only [reduceCtorEq, false_iff]
      omega
    · simp only [true_iff]
      omega

/-- Which texts are read as a shape, and as which: every documented text as what it says, dimension
by dimension; any list between brackets that do not match as well; and the largest word as the
dynamic dimension. -/
theorem read_exact (text : String) :
    (∀ s, read text = .ok s ↔
      ∃ opening closing lits, Written opening closing text.toList lits ∧
        s = ⟨lits.map Literal.dim⟩) ∧
    (∀ lits, Documented text lits → read text = .ok ⟨lits.map Literal.dim⟩) ∧
    (∀ s, read text = .ok s →
      ((∃ lits, Documented text lits) ↔
        text.toList.count '[' = text.toList.count ']' ∧ text.toList.count '[' ≤ 1)) ∧
    (∀ word lit, Spelled word lit →
      (lit.dim = .dynamic ↔ lit = .dynamic ∨ lit = .numeral dynamicCode)) :=
  ⟨fun _ => read_eq_ok_iff, fun _ => Documented.read_eq, fun _ => documented_iff_of_read,
    fun _ _ => Spelled.dim_eq_dynamic_iff⟩

/-- A bracket that is never closed, and a numeral that is taken for a question mark. -/
theorem read_unmatched_bracket :
    read "[2,3" = .ok ⟨[.static 2, .static 3]⟩ ∧ (¬ ∃ lits, Documented "[2,3" lits) ∧
      read "18446744073709551615" = .ok ⟨[.dynamic]⟩ := by
  have hread : read "[2,3" = .ok ⟨[.static 2, .static 3]⟩ := by decide +kernel
  refine ⟨hread, ?_, by decide +kernel⟩
  rw [documented_iff_of_read hread]
  decide +kernel

end TensorIR.Shape
