import TensorIR.Proofs.Source.Scanning

/-!
# Words and what follows them

Blanks, comments and line breaks stand between words and are no part of any (`solid_of_lexical`).
So what a word is does not depend on whatever follows the blank, the comment or the line break
after it: a piece that is cut off is cut off from every text that starts with it and has no more to
offer up to there (`readPiece_congr`). This holds for a number that could go on but does not, too,
since a longer number would be a longer word.
-/

set_option autoImplicit false

namespace TensorIR.Source

open Pattern

variable {c : Char} {cs cs' u v front back : List Char}

/-! ## What no word contains -/

/-- The character is between words: a blank, the start of a comment, or a line break. -/
def endsWord (c : Char) : Bool := isSpace c || c = '#' || c = '\n'

/-- There is no such character in the text. -/
def Solid (v : List Char) : Prop := ∀ d ∈ v, endsWord d = false

theorem Solid.append (hu : Solid u) (hv : Solid v) : Solid (u ++ v) :=
  List.forall_mem_append.mpr ⟨hu, hv⟩

theorem solid_of_mem_star {p : Char → Bool} (hp : ∀ c, p c = true → endsWord c = false)
    (h : u ∈ KStar.kstar (one p)) : Solid u :=
  fun d hd => hp d (mem_star_iff.mp h d hd)

theorem solid_of_mem_run {p : Char → Bool} (hp : ∀ c, p c = true → endsWord c = false)
    (h : u ∈ run p) : Solid u :=
  fun d hd => hp d ((mem_run_iff.mp h).2 d hd)

theorem solid_of_mem_one {p : Char → Bool} (hp : ∀ c, p c = true → endsWord c = false)
    (h : u ∈ one p) : Solid u := by
  obtain ⟨d, hd, rfl⟩ := h
  exact List.forall_mem_singleton.mpr (hp d hd)

theorem solid_of_mem_optional {l : Language Char} (hl : ∀ w ∈ l, Solid w) (h : u ∈ optional l) :
    Solid u := by
  rcases h with rfl | h
  · exact List.forall_mem_nil _
  · exact hl u h

theorem endsWord_of_isIdentPart (h : isIdentPart c = true) : endsWord c = false := by
  have hspace : ¬ isSpace c = true := not_isSpace_of_mem isIdentPart (by decide) h
  have hcomment : c ≠ '#' := by rintro rfl; revert h; decide
  have hline : c ≠ '\n' := by rintro rfl; revert h; decide
  simp [endsWord, hspace, hcomment, hline]

theorem endsWord_of_isDigit (h : c.isDigit = true) : endsWord c = false :=
  endsWord_of_isIdentPart (by simp [isIdentPart, h])

theorem solid_digits (h : u ∈ digits) : Solid u :=
  solid_of_mem_run (fun _ => endsWord_of_isDigit) h

theorem solid_exponent (h : u ∈ exponent) : Solid u := by
  obtain ⟨marker, hmarker, rest, hrest, rfl⟩ := Language.mem_mul.mp h
  obtain ⟨sign, hsign, ds, hds, rfl⟩ := Language.mem_mul.mp hrest
  have hletters : ∀ d, (decide (d = 'e') || decide (d = 'E')) = true → endsWord d = false := by
    intro d hd
    simp only [Bool.or_eq_true, decide_eq_true_eq] at hd
    rcases hd with rfl | rfl <;> decide
  have hsigns : ∀ d, (decide (d = '+') || decide (d = '-')) = true → endsWord d = false := by
    intro d hd
    simp only [Bool.or_eq_true, decide_eq_true_eq] at hd
    rcases hd with rfl | rfl <;> decide
  exact (solid_of_mem_one hletters hmarker).append
    ((solid_of_mem_optional (fun _ => solid_of_mem_one hsigns) hsign).append (solid_digits hds))

theorem solid_floatTail (h : u ∈ floatTail) : Solid u := by
  rcases h with ⟨fraction, hfraction, tail, htail, rfl⟩ | h
  · obtain ⟨point, hpoint, ds, hds, rfl⟩ := Language.mem_mul.mp hfraction
    have hpoints : ∀ d, decide (d = '.') = true → endsWord d = false := by
      intro d hd
      obtain rfl := of_decide_eq_true hd
      decide
    exact ((solid_of_mem_one hpoints hpoint).append (solid_digits hds)).append
      (solid_of_mem_optional (fun _ => solid_exponent) htail)
  · exact solid_exponent h

/-- A word that does not start between words stays clear of what is between words. -/
theorem solid_of_lexical (hc : endsWord c = false) (h : Lexical (c :: u)) : Solid u := by
  have htails := mem_tails_of_lexical h
  have hfloat : ∀ w ∈ floatTail, Solid w := fun _ => solid_floatTail
  simp only [endsWord, Bool.or_eq_false_iff, decide_eq_false_iff_not] at hc
  cases hstart : startOf c with
  | blank | comment | lineBreak =>
    exfalso
    unfold startOf at hstart
    simp only [hc.1.1, hc.1.2, hc.2, Bool.false_eq_true, if_false] at hstart
    repeat' split at hstart
    all_goals cases hstart
  | letter =>
    rw [hstart] at htails
    exact solid_of_mem_star (fun _ => endsWord_of_isIdentPart) htails
  | symbol =>
    rw [hstart] at htails
    obtain rfl : u = [] := htails
    exact List.forall_mem_nil _
  | digit =>
    rw [hstart] at htails
    obtain ⟨ds, hds, tail, htail, rfl⟩ := Language.mem_mul.mp htails
    exact (solid_of_mem_star (fun _ => endsWord_of_isDigit) hds).append
      (solid_of_mem_optional hfloat htail)
  | minus =>
    rw [hstart] at htails
    obtain ⟨ds, hds, tail, htail, rfl⟩ := Language.mem_mul.mp htails
    exact (solid_digits hds).append (solid_of_mem_optional hfloat htail)
  | other =>
    rw [hstart] at htails
    exact absurd htails (Language.notMem_zero u)

/-! ## Pieces that have the same text -/

/-- The tail of a number is told from its digits. -/
theorem numberPiece_congr (h : (numberPiece c cs).2 = (numberPiece c cs').2) :
    numberPiece c cs = numberPiece c cs' := by
  have hdigits : ∀ ds, digitsOf (numberPiece c ds).2 = digitsOf ds := by
    intro ds
    have hmem : ∀ d ∈ digitsOf ds, d.isDigit = true := fun _ => isDigit_of_mem_digitsOf
    simp only [numberPiece]
    rw [digitsOf_append hmem]
    rcases numberTail_mem (ds.drop (digitsOf ds).length) with hnil | htail
    · rw [show numberTail (ds.drop (digitsOf ds).length) = [] from hnil]
      exact List.append_nil _
    · have hend := (noDigitFirst_of_floatTail htail).digitsOf_eq []
      rw [List.append_nil] at hend
      rw [hend, List.append_nil]
  have hsame : digitsOf cs = digitsOf cs' := by rw [← hdigits cs, h, hdigits cs']
  have htail : numberTail (cs.drop (digitsOf cs).length) =
      numberTail (cs'.drop (digitsOf cs').length) := by
    simp only [numberPiece, hsame] at h
    rw [hsame]
    exact List.append_cancel_left h
  simp only [numberPiece]
  rw [htail, hsame]

/-- What a piece is, its text tells. -/
theorem readPiece_eq_of_text (h : (readPiece c cs).2 = (readPiece c cs').2) :
    readPiece c cs = readPiece c cs' := by
  have hcut := cut_readPiece c cs
  have hcut' := cut_readPiece c cs'
  have hne : ∀ ds, digitsOf ds ≠ [] → (numberPiece c ds).2 ≠ [] := fun ds hds =>
    List.append_ne_nil_of_left_ne_nil hds _
  generalize readPiece c cs = piece at *
  generalize readPiece c cs' = piece' at *
  cases hcut with
  | digit hstart =>
    cases hcut' with
    | digit => exact numberPiece_congr h
    | _ => simp_all
  | minus hstart _ hdigits =>
    cases hcut' with
    | minus => exact numberPiece_congr h
    | loneMinus => exact absurd h (hne cs hdigits)
    | _ => simp_all
  | loneMinus hstart =>
    cases hcut' with
    | minus _ _ hdigits => exact absurd h.symm (hne cs' hdigits)
    | _ => simp_all
  | _ => cases hcut' <;> simp_all

/-! ## Pieces before different texts -/

/-- A piece is a word, or a single character. -/
theorem lexical_or_single (c : Char) (cs : List Char) :
    Lexical (c :: (readPiece c cs).2) ∨ (readPiece c cs).2 = [] := by
  have hholds := holds_readPiece c cs
  generalize readPiece c cs = piece at hholds
  obtain ⟨reading, more⟩ := piece
  cases reading with
  | skipped => exact .inl (.inl (hholds.imp id And.left))
  | token t => exact .inl (.inr ⟨t, hholds.pattern⟩)
  | bad =>
    rcases hholds with ⟨-, d, hd⟩ | hoverflow
    · exact .inr (List.cons.inj hd).2
    · exact .inl (.inr ⟨.int 0, hoverflow.literal⟩)

theorem solid_readPiece (hc : endsWord c = false) : Solid (readPiece c cs).2 := by
  rcases lexical_or_single c cs with hlex | hnil
  · exact solid_of_lexical hc hlex
  · rw [hnil]
    exact List.forall_mem_nil _

/-- The same piece is cut off from another text that starts with it, if all that the other text has
to offer to a word is there in the first text as well. -/
theorem readPiece_congr (hc : endsWord c = false) (hfront : (readPiece c cs).2 <+: cs')
    (hfit : ∀ v, v <+: cs' → Solid v → v <+: cs) : readPiece c cs' = readPiece c cs := by
  have hlonger : (readPiece c cs).2.length ≤ (readPiece c cs').2.length := by
    rcases lexical_or_single c cs with hlex | hnil
    · exact length_le_readPiece hfront hlex
    · rw [hnil]
      exact Nat.zero_le _
  have hshorter : (readPiece c cs').2.length ≤ (readPiece c cs).2.length := by
    rcases lexical_or_single c cs' with hlex | hnil
    · exact length_le_readPiece
        (hfit _ (readPiece_isPrefix c cs') (solid_of_lexical hc hlex)) hlex
    · rw [hnil]
      exact Nat.zero_le _
  have hinitial := List.prefix_of_prefix_length_le hfront (readPiece_isPrefix c cs') hlonger
  exact (readPiece_eq_of_text (hinitial.eq_of_length (Nat.le_antisymm hlonger hshorter))).symm

/-- No word goes on into the text: it is empty, or starts with a character between words. -/
def Apart (cs : List Char) : Prop := ∀ c ∈ cs.head?, endsWord c = true

theorem prefix_of_apart (hback : Apart back) (hv : Solid v) (h : v <+: front ++ back) :
    v <+: front := by
  rcases List.prefix_or_prefix_of_prefix h (List.prefix_append front back) with hin | ⟨w, rfl⟩
  · exact hin
  · cases w with
    | nil => rw [List.append_nil]
    | cons d w =>
      obtain ⟨rest, rfl⟩ := (List.prefix_append_right_inj front).mp h
      have hsolid := hv d (by simp)
      rw [hback d rfl] at hsolid
      cases hsolid

end TensorIR.Source
