import Mathlib.Logic.Relation
import TensorIR.Proofs.Source.Placeless
import TensorIR.Proofs.Source.Words

/-!
# Layout

A source can be laid out in many ways: blanks between pieces, comments at the ends of lines, empty
lines and lines with nothing but a comment. None of that matters. The edits that change the layout
and nothing else are listed (`Relayout`); any number of them leave the bad stretches the same, text
by text, and the program the same up to places (`layout_immaterial`).

What does not change under an edit is the gist of a text: its tokens with each run of line breaks
counted once, and its bad stretches. Blanks and comments add nothing to the gist of what follows
them, and a second line break adds nothing to the first. From the place of the edit this carries
over to the whole source, piece by piece towards the front, because a piece that ends before that
place is cut off there from the edited source as well.
-/

set_option autoImplicit false

namespace TensorIR

open Computability

namespace Source

variable {c : Char} {cs text rest rest' front back back' : List Char}

/-! ## The gist of a text -/

/-- What a piece adds to the gist of what follows it. -/
def Piece.onto (p : Piece) (gist : List Token × List (List Char)) :
    List Token × List (List Char) :=
  match p.reading with
  | .skipped => gist
  | .token t => (addToken t gist.1, gist.2)
  | .bad => (gist.1, p.text :: gist.2)

/-- The tokens of a text, each run of line breaks counted once, and its bad stretches. -/
def gist (cs : List Char) : List Token × List (List Char) :=
  (pieces cs).foldr Piece.onto ([], [])

theorem gist_locate (start : Nat) (ps : List Piece) : ps.foldr Piece.onto ([], []) =
    (squeeze ((locate start ps).lexemes.map Lexeme.token),
      (locate start ps).bad.map BadText.text) := by
  induction ps generalizing start with
  | nil => rfl
  | cons p ps ih =>
    rw [List.foldr_cons, ih (start + byteLength p.text), Piece.onto, locate]
    split <;> simp_all [squeeze]

theorem gist_eq (source : List Char) : gist source =
    (squeeze ((scan source).lexemes.map Lexeme.token), (scan source).bad.map BadText.text) :=
  gist_locate 0 (pieces source)

theorem pieces_cons (c : Char) (cs : List Char) : pieces (c :: cs) =
    ⟨(readPiece c cs).1, c :: (readPiece c cs).2⟩ ::
      pieces (cs.drop (readPiece c cs).2.length) := by
  rw [pieces]

theorem gist_cons (c : Char) (cs : List Char) : gist (c :: cs) =
    Piece.onto ⟨(readPiece c cs).1, c :: (readPiece c cs).2⟩
      (gist (cs.drop (readPiece c cs).2.length)) := by
  rw [gist, pieces_cons]
  rfl

theorem drop_length_takeWhile (p : Char → Bool) (cs : List Char) :
    cs.drop (cs.takeWhile p).length = cs.dropWhile p := by
  induction cs with
  | nil => rfl
  | cons c cs ih => cases hc : p c <;> simp [hc, ih]

/-! ## What layout adds to it -/

theorem readPiece_space (hc : isSpace c = true) (cs : List Char) :
    readPiece c cs = (.skipped, cs.takeWhile isSpace) := by
  simp [readPiece, hc]

theorem readPiece_comment (cs : List Char) :
    readPiece '#' cs = (.skipped, cs.takeWhile (· ≠ '\n')) := by
  simp [readPiece, isSpace]

theorem readPiece_newline (cs : List Char) :
    readPiece '\n' cs = (.token .newline, cs.takeWhile (· = '\n')) := by
  simp [readPiece, isSpace]

theorem gist_space (hc : isSpace c = true) : gist (c :: cs) = gist cs := by
  have hrun : ∀ {c cs}, isSpace c = true → gist (c :: cs) = gist (cs.dropWhile isSpace) := by
    intro c cs hc
    rw [gist_cons, readPiece_space hc, drop_length_takeWhile]
    rfl
  rw [hrun hc]
  cases cs with
  | nil => rfl
  | cons d cs =>
    cases hd : isSpace d with
    | true => rw [hrun hd, List.dropWhile_cons_of_pos hd]
    | false => rw [List.dropWhile_cons_of_neg (by simp [hd])]

theorem gist_spaces (h : ∀ c ∈ text, isSpace c = true) : gist (text ++ rest) = gist rest := by
  induction text with
  | nil => rfl
  | cons c text ih =>
    obtain ⟨hc, htext⟩ := List.forall_mem_cons.mp h
    rw [List.cons_append, gist_space hc, ih htext]

/-- A comment goes to the end of its line. -/
theorem gist_comment (cs : List Char) : gist ('#' :: cs) = gist (cs.dropWhile (· ≠ '\n')) := by
  rw [gist_cons, readPiece_comment, drop_length_takeWhile]
  rfl

theorem addToken_newline_twice (ts : List Token) :
    addToken .newline (addToken .newline ts) = addToken .newline ts := by
  cases ts with
  | nil => rfl
  | cons t ts => cases t <;> rfl

theorem gist_newline (cs : List Char) : gist ('\n' :: cs) =
    (addToken .newline (gist cs).1, (gist cs).2) := by
  have hrun : ∀ cs, gist ('\n' :: cs) =
      (addToken .newline (gist (cs.dropWhile (· = '\n'))).1,
        (gist (cs.dropWhile (· = '\n'))).2) := by
    intro cs
    rw [gist_cons, readPiece_newline, drop_length_takeWhile]
    rfl
  rw [hrun cs]
  cases cs with
  | nil => rfl
  | cons d cs =>
    by_cases hd : d = '\n'
    · subst hd
      rw [hrun cs, addToken_newline_twice]
      simp
    · rw [List.dropWhile_cons_of_neg (by simpa using hd)]

theorem gist_newlines_congr (h : ∀ c ∈ text, c = '\n') (heq : gist rest' = gist rest) :
    gist (text ++ rest') = gist (text ++ rest) := by
  induction text with
  | nil => exact heq
  | cons c text ih =>
    obtain ⟨rfl, htext⟩ := List.forall_mem_cons.mp h
    rw [List.cons_append, List.cons_append, gist_newline, gist_newline, ih htext]

/-! ## Texts that may stand for each other -/

theorem EndsLine.dropWhile_eq (h : EndsLine cs) : cs.dropWhile (· ≠ '\n') = cs := by
  rcases h with rfl | ⟨rest, rfl⟩
  · rfl
  · simp

theorem apart_cons (hc : endsWord c = true) (cs : List Char) : Apart (c :: cs) := by
  intro d hd
  obtain rfl := Option.some.inj hd
  exact hc

theorem EndsLine.apart (h : EndsLine cs) : Apart cs := by
  rcases h with rfl | ⟨rest, rfl⟩
  · exact fun _ hc => by cases hc
  · exact apart_cons (by decide) rest

/-- A text can be replaced by one with the same gist that no word before it goes on into, and
whose gist is not lost when a comment before it goes on to the end of the line. -/
structure Relaid (back back' : List Char) : Prop where
  gist : gist back' = gist back
  apart : Apart back'
  line : EndsLine back → Source.gist (back'.dropWhile (· ≠ '\n')) = Source.gist back'

/-- What the pieces of each kind are. -/
theorem readPiece_cases (c : Char) (cs : List Char) :
    (isSpace c = true ∧ ∀ d ∈ (readPiece c cs).2, isSpace d = true) ∨
    (c = '#' ∧ (∀ d ∈ (readPiece c cs).2, (decide (d ≠ '\n')) = true) ∧
      EndsLine (cs.drop (readPiece c cs).2.length)) ∨
    (c = '\n' ∧ ∀ d ∈ (readPiece c cs).2, d = '\n') ∨
    (endsWord c = false ∧ Solid (readPiece c cs).2) := by
  by_cases hspace : isSpace c = true
  · rw [readPiece_space hspace]
    exact .inl ⟨hspace, fun _ => List.mem_takeWhile_imp⟩
  by_cases hcomment : c = '#'
  · rw [hcomment, readPiece_comment]
    exact .inr (.inl ⟨rfl, fun _ => List.mem_takeWhile_imp, endsLine_drop cs⟩)
  by_cases hline : c = '\n'
  · rw [hline, readPiece_newline]
    refine .inr (.inr (.inl ⟨rfl, fun d hd => ?_⟩))
    simpa using List.mem_takeWhile_imp hd
  · have hword : endsWord c = false := by simp [endsWord, hspace, hcomment, hline]
    exact .inr (.inr (.inr ⟨hword, solid_readPiece hword⟩))

/-- One piece towards the front: if the text after it may be replaced, then so may the text with
the piece before it. -/
theorem Relaid.gist_piece (h : Relaid back back')
    (hpiece : (readPiece c (text ++ (rest ++ back))).2 = text)
    (heq : Source.gist (rest ++ back') = Source.gist (rest ++ back)) :
    Source.gist (c :: (text ++ (rest ++ back'))) = Source.gist (c :: (text ++ (rest ++ back))) := by
  have hkind := readPiece_cases c (text ++ (rest ++ back))
  rw [hpiece, List.drop_left] at hkind
  rcases hkind with ⟨hc, htext⟩ | ⟨rfl, htext, hends⟩ | ⟨rfl, htext⟩ | ⟨hc, htext⟩
  · rw [gist_space hc, gist_space hc, gist_spaces htext, gist_spaces htext, heq]
  · rw [gist_comment, gist_comment, List.dropWhile_append_of_pos htext,
      List.dropWhile_append_of_pos htext, hends.dropWhile_eq, ← heq]
    cases rest with
    | nil => exact h.line hends
    | cons d rest =>
      obtain hnil | ⟨tail, htail⟩ := hends
      · cases hnil
      · obtain ⟨rfl, -⟩ := List.cons.inj htail
        rfl
  · have hlines : ∀ d ∈ '\n' :: text, d = '\n' := List.forall_mem_cons.mpr ⟨rfl, htext⟩
    exact gist_newlines_congr hlines heq
  · -- The piece is cut off as before: no word goes on into the text that is put in.
    have hsame : readPiece c (text ++ (rest ++ back')) = readPiece c (text ++ (rest ++ back)) := by
      refine readPiece_congr hc (by rw [hpiece]; exact List.prefix_append _ _) fun v hv hsolid => ?_
      rw [← List.append_assoc] at hv ⊢
      exact (prefix_of_apart h.apart hsolid hv).trans (List.prefix_append _ _)
    rw [gist_cons, gist_cons, hsame, hpiece, List.drop_left, List.drop_left, heq]

/-- The text is between two pieces, or at one of the ends. -/
def Boundary (front back : List Char) : Prop :=
  ∃ before after, pieces (front ++ back) = before ++ after ∧ before.flatMap Piece.text = front

theorem Relaid.gist_of_boundary (h : Relaid back back') (hfront : Boundary front back) :
    Source.gist (front ++ back') = Source.gist (front ++ back) := by
  obtain ⟨before, after, hpieces, rfl⟩ := hfront
  induction before with
  | nil => exact h.gist
  | cons p before ih =>
    generalize hsource : (p :: before).flatMap Piece.text ++ back = source at hpieces
    cases source with
    | nil => simp [pieces] at hpieces
    | cons c cs =>
      rw [pieces_cons, List.cons_append, List.cons.injEq] at hpieces
      obtain ⟨rfl, hrest⟩ := hpieces
      simp only [List.flatMap_cons, List.cons_append, List.cons.injEq, true_and,
        List.append_assoc] at hsource ⊢
      generalize hpiece : (readPiece c cs).2 = text at hsource hrest
      subst hsource
      rw [List.drop_left] at hrest
      exact h.gist_piece hpiece (ih hrest)

/-- Before the end of a line only line breaks can go on. -/
theorem piece_of_endsLine (c : Char) (cs : List Char) (hback : EndsLine back) :
    (readPiece c (cs ++ back)).2 <+: cs ∨ (c = '\n' ∧ ∀ d ∈ cs, d = '\n') := by
  have hprefix := readPiece_isPrefix c (cs ++ back)
  rcases List.prefix_or_prefix_of_prefix hprefix (List.prefix_append cs back) with hin | ⟨w, hw⟩
  · exact .inl hin
  cases w with
  | nil => exact .inl (by rw [← hw, List.append_nil])
  | cons d w =>
    obtain ⟨tail, htail⟩ := (List.prefix_append_right_inj cs).mp (hw ▸ hprefix)
    obtain rfl : d = '\n' := by
      rcases hback with rfl | ⟨rest, rfl⟩
      · cases htail
      · exact (List.cons.inj htail).1
    have hmem : '\n' ∈ (readPiece c (cs ++ back)).2 := hw ▸ by simp
    rcases readPiece_cases c (cs ++ back) with
      ⟨-, hspaces⟩ | ⟨-, hcomment, -⟩ | ⟨rfl, hlines⟩ | ⟨-, hsolid⟩
    · exact absurd (hspaces _ hmem) (by decide)
    · exact absurd (hcomment _ hmem) (by decide)
    · exact .inr ⟨rfl, fun d hd => hlines d (hw ▸ List.mem_append_left _ hd)⟩
    · exact absurd (hsolid _ hmem) (by decide)

theorem Relaid.gist_of_endsLine (h : Relaid back back') (hback : EndsLine back)
    (front : List Char) : Source.gist (front ++ back') = Source.gist (front ++ back) := by
  induction hn : front.length using Nat.strong_induction_on generalizing front with
  | _ n ih =>
    cases front with
    | nil => exact h.gist
    | cons c cs =>
      rcases piece_of_endsLine c cs hback with ⟨rest, hrest⟩ | ⟨rfl, hlines⟩
      · generalize hpiece : (readPiece c (cs ++ back)).2 = text at hrest
        subst hrest
        have hshorter : rest.length < n := by
          simp only [List.length_cons, List.length_append] at hn
          omega
        simp only [List.append_assoc, List.cons_append] at hpiece ⊢
        exact h.gist_piece hpiece (ih rest.length hshorter rest rfl)
      · exact gist_newlines_congr (List.forall_mem_cons.mpr ⟨rfl, hlines⟩) h.gist

/-! ## Edits -/

/-- A change of the layout. -/
inductive Relayout : List Char → List Char → Prop
  /-- Blanks are put between two pieces, or at one of the ends. -/
  | blanks {front blanks back : List Char} (hfront : Boundary front back)
    (hblanks : ∀ c ∈ blanks, isSpace c = true) :
    Relayout (front ++ back) (front ++ (blanks ++ back))
  /-- A comment is put at the end of a line, or at the end of the source. -/
  | comment {front comment back : List Char} (hcomment : comment ∈ Pattern.comment)
    (hback : EndsLine back) : Relayout (front ++ back) (front ++ (comment ++ back))
  /-- A line break becomes one or more, with blanks and comments before each. -/
  | lineBreaks {front back : List Char} {gaps : List (List Char)} (hne : gaps ≠ [])
    (hgaps : ∀ gap ∈ gaps, gap ∈ Pattern.skipped∗) :
    Relayout (front ++ '\n' :: back) (front ++ (gaps.flatMap (· ++ ['\n']) ++ back))

theorem exists_cons_of_comment (h : text ∈ Pattern.comment) :
    ∃ more, text = '#' :: more ∧ ∀ c ∈ more, decide (c ≠ '\n') = true := by
  cases text with
  | nil => exact absurd h Pattern.nil_notMem_one_mul
  | cons c more =>
    obtain ⟨hc, hmore⟩ := Pattern.cons_mem_one_mul_iff.mp h
    exact ⟨more, by rw [of_decide_eq_true hc], Pattern.mem_star_iff.mp hmore⟩

theorem ne_newline_of_isSpace (hc : isSpace c = true) : decide (c ≠ '\n') = true := by
  refine decide_eq_true ?_
  rintro rfl
  exact absurd hc (by decide)

theorem relaid_refl (hback : EndsLine back) : Relaid back back where
  gist := rfl
  apart := hback.apart
  line _ := by rw [hback.dropWhile_eq]

theorem relaid_blanks (hne : text ≠ []) (htext : ∀ c ∈ text, isSpace c = true) :
    Relaid back (text ++ back) where
  gist := gist_spaces htext
  apart := by
    cases text with
    | nil => exact absurd rfl hne
    | cons c text => exact apart_cons (by simp [endsWord, htext c List.mem_cons_self]) _
  line hback := by
    rw [List.dropWhile_append_of_pos fun c hc => ne_newline_of_isSpace (htext c hc),
      hback.dropWhile_eq, gist_spaces htext]

/-- Blanks and comments can be put before a text that may stand at the end of a line. -/
theorem Relaid.after_skipped (h : Relaid back back') (hback : EndsLine back)
    (htext : text ∈ Pattern.skipped) : Relaid back (text ++ back') := by
  rcases htext with hblanks | hcomment
  · obtain ⟨hne, hspaces⟩ := Pattern.mem_run_iff.mp hblanks
    have hgist : Source.gist (text ++ back') = Source.gist back' := gist_spaces hspaces
    refine ⟨hgist.trans h.gist, (relaid_blanks hne hspaces).apart, fun _ => ?_⟩
    rw [List.dropWhile_append_of_pos fun c hc => ne_newline_of_isSpace (hspaces c hc),
      h.line hback, hgist]
  · obtain ⟨more, rfl, hmore⟩ := exists_cons_of_comment hcomment
    have hgist : Source.gist ('#' :: more ++ back') = Source.gist back' := by
      rw [List.cons_append, gist_comment, List.dropWhile_append_of_pos hmore, h.line hback]
    refine ⟨hgist.trans h.gist, apart_cons (by decide) _, fun _ => ?_⟩
    rw [hgist, List.cons_append, List.dropWhile_cons_of_pos (by decide),
      List.dropWhile_append_of_pos hmore, h.line hback]

theorem Relaid.after_gap (h : Relaid back back') (hback : EndsLine back)
    (hgap : text ∈ Pattern.skipped∗) : Relaid back (text ++ back') := by
  obtain ⟨parts, rfl, hparts⟩ := Language.mem_kstar.mp hgap
  clear hgap
  induction parts with
  | nil => exact h
  | cons part parts ih =>
    obtain ⟨hpart, hparts⟩ := List.forall_mem_cons.mp hparts
    rw [List.flatten_cons, List.append_assoc]
    exact (ih hparts).after_skipped hback hpart

/-- A second line break adds nothing. -/
theorem Relaid.after_newline (h : Relaid ('\n' :: back) back') :
    Relaid ('\n' :: back) ('\n' :: back') where
  gist := by rw [gist_newline, h.gist, gist_newline, addToken_newline_twice]
  apart := apart_cons (by decide) back'
  line _ := by rw [EndsLine.dropWhile_eq (.inr ⟨back', rfl⟩)]

theorem relaid_lineBreaks {gaps : List (List Char)} (hne : gaps ≠ [])
    (hgaps : ∀ gap ∈ gaps, gap ∈ Pattern.skipped∗) (back : List Char) :
    Relaid ('\n' :: back) (gaps.flatMap (· ++ ['\n']) ++ back) := by
  have hline : EndsLine ('\n' :: back) := .inr ⟨back, rfl⟩
  induction gaps with
  | nil => exact absurd rfl hne
  | cons gap gaps ih =>
    obtain ⟨hgap, hgaps⟩ := List.forall_mem_cons.mp hgaps
    simp only [List.flatMap_cons, List.append_assoc, List.singleton_append]
    cases gaps with
    | nil => exact (relaid_refl hline).after_gap hline hgap
    | cons next gaps => exact (ih (by simp) hgaps).after_newline.after_gap hline hgap

theorem Relayout.gist_eq {source source' : List Char} (h : Relayout source source') :
    gist source' = gist source := by
  cases h with
  | @blanks front blanks back hfront hblanks =>
    cases blanks with
    | nil => rfl
    | cons c blanks => exact (relaid_blanks (by simp) hblanks).gist_of_boundary hfront
  | comment hcomment hback =>
    exact ((relaid_refl hback).after_skipped hback (.inr hcomment)).gist_of_endsLine hback _
  | lineBreaks hne hgaps =>
    exact (relaid_lineBreaks hne hgaps _).gist_of_endsLine (.inr ⟨_, rfl⟩) _

end Source

theorem errors_eq_nil_iff (source : List Char) : (parse source).errors = [] ↔
    (Source.scan source).bad.map Source.BadText.text = [] ∧
      ((parse source).program.map Program.unplaced).isSome := by
  simp only [parse, List.map_eq_nil_iff]
  split <;> simp

/-- Layout does not matter. After any number of edits of the layout the bad stretches are the same
texts in the same order, the source is a program if and only if it was one before, and it is the
same program up to places. -/
theorem layout_immaterial {source source' : List Char}
    (h : Relation.ReflTransGen Source.Relayout source source') :
    (Source.scan source').bad.map Source.BadText.text =
      (Source.scan source).bad.map Source.BadText.text ∧
    ((∃ program, (parse source').program = some program) ↔
      ∃ program, (parse source).program = some program) ∧
    ((parse source').errors = [] ↔ (parse source).errors = []) ∧
    (parse source').program.map Program.unplaced =
      (parse source).program.map Program.unplaced := by
  have hgist : Source.gist source' = Source.gist source := by
    induction h with
    | refl => rfl
    | tail _ hstep ih => exact hstep.gist_eq.trans ih
  rw [Source.gist_eq, Source.gist_eq, Prod.mk.injEq] at hgist
  have hprogram := program_unplaced_congr hgist.1
  refine ⟨hgist.2, ?_, ?_, hprogram⟩
  · have hsome := congrArg Option.isSome hprogram
    rw [Option.isSome_map, Option.isSome_map, Bool.eq_iff_iff] at hsome
    simpa only [Option.isSome_iff_exists] using hsome
  · rw [errors_eq_nil_iff, errors_eq_nil_iff, hgist.2, hprogram]

/-- A blank before a parenthesis, a comment at the end of the line, and a line break of two
characters with an empty line after it. -/
theorem layout_immaterial_call :
    Relation.ReflTransGen Source.Relayout "f()\n".toList "f ()# c\r\n\n".toList ∧
    (∃ program, (parse "f ()# c\r\n\n".toList).program = some program) ∧
    (parse "f ()# c\r\n\n".toList).program.map Program.unplaced =
      (parse "f()\n".toList).program.map Program.unplaced := by
  have hblank : Source.Relayout "f()\n".toList "f ()\n".toList :=
    @Source.Relayout.blanks ['f'] [' '] ['(', ')', '\n']
      ⟨[⟨.token (.ident "f"), ['f']⟩], [⟨.token .leftParen, ['(']⟩, ⟨.token .rightParen, [')']⟩,
        ⟨.token .newline, ['\n']⟩], by decide +kernel, rfl⟩ (by simp [Source.isSpace])
  have hcomment : Source.Relayout "f ()\n".toList "f ()# c\n".toList :=
    @Source.Relayout.comment ['f', ' ', '(', ')'] ['#', ' ', 'c'] ['\n']
      (Source.Pattern.cons_mem_one_mul_iff.mpr
        ⟨by decide, Source.Pattern.mem_star_iff.mpr (by simp)⟩) (.inr ⟨[], rfl⟩)
  have hreturn : ['\r'] ∈ Source.Pattern.skipped :=
    .inl (Source.Pattern.mem_run_iff.mpr ⟨by simp, by simp [Source.isSpace]⟩)
  have hgaps : ∀ gap ∈ [['\r'], []], gap ∈ Source.Pattern.skipped∗ := by
    intro gap hgap
    rcases List.mem_pair.mp hgap with rfl | rfl
    · exact Language.mem_kstar.mpr ⟨[['\r']], rfl, List.forall_mem_singleton.mpr hreturn⟩
    · exact Language.nil_mem_kstar _
  have hlines : Source.Relayout "f ()# c\n".toList "f ()# c\r\n\n".toList :=
    @Source.Relayout.lineBreaks ['f', ' ', '(', ')', '#', ' ', 'c'] [] [['\r'], []] (by simp)
      hgaps
  have hedits := Relation.ReflTransGen.tail (.tail (.single hblank) hcomment) hlines
  obtain ⟨-, hprogram, -, hsame⟩ := layout_immaterial hedits
  have hparse : ∃ program, (parse "f()\n".toList).program = some program :=
    Option.isSome_iff_exists.mp (by decide +kernel)
  exact ⟨hedits, hprogram.mpr hparse, hsame⟩

end TensorIR
