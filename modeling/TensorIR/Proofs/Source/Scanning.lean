import Mathlib.Data.List.Pairwise
import TensorIR.Proofs.Source.Literals
import TensorIR.Proofs.Source.Spelling

/-!
# A scan loses nothing

Tokens and bad stretches stand in the source one after the other, and between them there is nothing
but blanks and comments (`Lossless`). Each token is the longest word that starts where it
starts, and says what its text says; a bad stretch is a character that starts no word, or a whole
number that does not fit.

What holds of a piece (`Reading.Holds`) depends on the piece and on what follows it, and so carries
over from the first piece of a source to all of them. Where pieces stand is a second question: the
spans of all pieces, skipped ones included, follow one another without a gap (`placed`), so what is
missing from a scan is skipped.
-/

set_option autoImplicit false

namespace TensorIR

/-- What the token carries is what its text says. -/
def Token.Means : Token → List Char → Prop
  | .int n, text => n = Source.literalValue text ∧ Source.FitsWord n
  | .float v, text => Binary64.read? text = some v
  | .ident name, text => name.toList = text
  | _, _ => True

namespace Source

variable {c : Char} {cs u text after rest w : List Char} {t : Token}

/-! ## What a piece is -/

/-- The text is at the front of the rest of a source, and no word there is longer. -/
structure Longest (text rest : List Char) : Prop where
  front : text <+: rest
  length_le : ∀ w, w <+: rest → Lexical w → w.length ≤ text.length

/-- The text is a token, and nothing longer is. -/
structure Recognized (t : Token) (text rest : List Char) : Prop where
  pattern : text ∈ t.pattern
  means : t.Means text
  longest : Longest text rest

/-- No word is at the front of the rest of a source. -/
def Unmatched (rest : List Char) : Prop := ∀ w, w ≠ [] → w <+: rest → ¬ Lexical w

/-- The text is a whole number, with all its digits, that is no signed word. -/
structure Overflows (text rest : List Char) : Prop where
  literal : text ∈ Pattern.int
  longest : Longest text rest
  large : ¬ FitsWord (literalValue text)

/-- The text is at the end of a line or of the source. -/
def EndsLine (cs : List Char) : Prop := cs = [] ∨ ∃ rest, cs = '\n' :: rest

/-- The text, before the text that follows it, is what it is read as. -/
def Reading.Holds : Reading → List Char → List Char → Prop
  | .skipped, text, after => text ∈ Pattern.blanks ∨ text ∈ Pattern.comment ∧ EndsLine after
  | .token t, text, after => Recognized t text (text ++ after)
  | .bad, text, after =>
    (Unmatched (text ++ after) ∧ ∃ c, text = [c]) ∨ Overflows text (text ++ after)

theorem Longest.unique {text' rest : List Char} (h : Longest text rest) (h' : Longest text' rest)
    (hlex : Lexical text) (hlex' : Lexical text') : text = text' := by
  have hle : text.length ≤ text'.length := h'.length_le text h.front hlex
  have hge : text'.length ≤ text.length := h.length_le text' h'.front hlex'
  have hprefix := List.prefix_of_prefix_length_le h.front h'.front hle
  exact hprefix.eq_of_length (Nat.le_antisymm hle hge)

theorem endsLine_drop (cs : List Char) :
    EndsLine (cs.drop (cs.takeWhile (· ≠ '\n')).length) := by
  induction cs with
  | nil => exact .inl rfl
  | cons c cs ih =>
    by_cases hc : c = '\n'
    · subst hc
      exact .inr ⟨cs, rfl⟩
    · simpa [hc] using ih

theorem longest_of_cons (hu : u <+: cs)
    (h : ∀ v, v <+: cs → Lexical (c :: v) → v.length ≤ u.length) : Longest (c :: u) (c :: cs) where
  front := List.cons_prefix_cons.mpr ⟨rfl, hu⟩
  length_le := by
    intro w hw hlex
    cases w with
    | nil => exact Nat.zero_le _
    | cons d v =>
      obtain ⟨rfl, hv⟩ := List.cons_prefix_cons.mp hw
      exact Nat.succ_le_succ (h v hv hlex)

theorem unmatched_of_not_lexical (h : ∀ u, u <+: cs → ¬ Lexical (c :: u)) :
    Unmatched (c :: cs) := by
  intro w hne hw
  obtain ⟨d, u, rfl⟩ := List.exists_cons_of_ne_nil hne
  obtain ⟨rfl, hu⟩ := List.cons_prefix_cons.mp hw
  exact h u hu

/-- A whole number and its tail are an integer, a float, or too large. -/
theorem holds_readNumber {whole tail : List Char} (hwhole : whole ∈ Pattern.int)
    (htail : tail ∈ Pattern.optional Pattern.floatTail)
    (hlongest : Longest (whole ++ tail) (whole ++ tail ++ after)) :
    (readNumber (whole ++ tail) tail).Holds (whole ++ tail) after := by
  rcases htail with rfl | htail
  · rw [List.append_nil] at hlongest ⊢
    have hread := readSigned?_eq hwhole
    by_cases hfits : FitsWord (literalValue whole)
    · rw [if_pos hfits] at hread
      simp only [readNumber, hread]
      exact ⟨hwhole, ⟨rfl, hfits⟩, hlongest⟩
    · rw [if_neg hfits] at hread
      simp only [readNumber, hread]
      exact .inr ⟨hwhole, hlongest, hfits⟩
  · have hfloat : whole ++ tail ∈ Pattern.float := Language.append_mem_mul hwhole htail
    obtain ⟨v, hv⟩ := Option.isSome_iff_exists.mp (isSome_read?_of_float hfloat)
    have hne : tail.isEmpty = false := by
      obtain ⟨d, u, rfl, -⟩ := noDigitFirst_of_floatTail htail
      rfl
    simp only [readNumber, hne, hv, Bool.false_eq_true, if_false]
    exact ⟨hfloat, hv, hlongest⟩

theorem holds_numberPiece (hint : c :: digitsOf cs ∈ Pattern.int)
    (hlongest : Longest (c :: (numberPiece c cs).2) (c :: (numberPiece c cs).2 ++ after)) :
    (numberPiece c cs).1.Holds (c :: (numberPiece c cs).2) after := by
  have htail := numberTail_mem (cs.drop (digitsOf cs).length)
  simp only [numberPiece] at hlongest ⊢
  generalize numberTail (cs.drop (digitsOf cs).length) = tail at htail hlongest ⊢
  rw [← List.cons_append] at hlongest ⊢
  exact holds_readNumber hint htail hlongest

theorem recognized_symbol (h : symbol? c = some t) (hlongest : Longest [c] rest) :
    Recognized t [c] rest := by
  unfold symbol? at h
  repeat' split at h
  all_goals cases h
  all_goals
    subst c
    exact ⟨rfl, trivial, hlongest⟩

/-- The piece that is cut off is what it is read as. -/
theorem holds_readPiece (c : Char) (cs : List Char) :
    (readPiece c cs).1.Holds (c :: (readPiece c cs).2) (cs.drop (readPiece c cs).2.length) := by
  have hsource : c :: cs = (c :: (readPiece c cs).2) ++ cs.drop (readPiece c cs).2.length := by
    rw [List.cons_append, List.prefix_iff_eq_append.mp (readPiece_isPrefix c cs)]
  have hlongest := longest_of_cons (readPiece_isPrefix c cs) fun v => length_le_readPiece
  have hcut := cut_readPiece c cs
  rw [hsource] at hlongest
  generalize readPiece c cs = piece at hcut hlongest ⊢
  cases hcut with
  | blank hstart hc =>
    exact .inl (Pattern.cons_mem_run_iff.mpr ⟨hc, fun _ => List.mem_takeWhile_imp⟩)
  | comment hstart hc =>
    refine .inr ⟨Pattern.cons_mem_one_mul_iff.mpr ⟨by simpa using hc, ?_⟩, endsLine_drop cs⟩
    exact Pattern.mem_star_iff.mpr fun _ => List.mem_takeWhile_imp
  | lineBreak hstart hc =>
    have hmem : c :: cs.takeWhile (· = '\n') ∈ Pattern.newlines :=
      Pattern.cons_mem_run_iff.mpr ⟨by simpa using hc, fun _ => List.mem_takeWhile_imp⟩
    exact ⟨hmem, trivial, hlongest⟩
  | letter hstart hc =>
    have hmem : c :: cs.takeWhile isIdentPart ∈ Pattern.ident :=
      Pattern.cons_mem_one_mul_iff.mpr
        ⟨hc, Pattern.mem_star_iff.mpr fun _ => List.mem_takeWhile_imp⟩
    exact ⟨hmem, String.toList_ofList, hlongest⟩
  | symbol hstart hc => exact recognized_symbol hc hlongest
  | digit hstart hc =>
    refine holds_numberPiece (cons_mem_int_iff.mpr (.inl ⟨hc, ?_⟩)) hlongest
    exact fun _ => isDigit_of_mem_digitsOf
  | minus hstart hc hdigits =>
    exact holds_numberPiece (cons_mem_int_iff.mpr (.inr ⟨hc, digitsOf_mem hdigits⟩)) hlongest
  | loneMinus hstart hdigits =>
    exact .inl ⟨unmatched_of_not_lexical fun u => not_lexical_of_loneMinus hstart hdigits, c, rfl⟩
  | other hstart =>
    exact .inl ⟨unmatched_of_not_lexical fun u _ => not_lexical_of_other hstart, c, rfl⟩

/-- Every piece of a source is what it is read as, before the pieces that follow it. -/
theorem holds_of_split {source : List Char} {before rest : List Piece} {p : Piece}
    (h : pieces source = before ++ p :: rest) :
    p.reading.Holds p.text (rest.flatMap Piece.text) := by
  fun_induction pieces source generalizing before with
  | case1 => simp at h
  | case2 c cs reading more hread ih =>
    cases before with
    | nil =>
      obtain ⟨rfl, rfl⟩ := List.cons.inj h
      have hholds := holds_readPiece c cs
      rw [hread] at hholds
      rw [text_pieces]
      exact hholds
    | cons q before => exact ih (List.cons.inj h).2

/-! ## A token is no bad stretch -/

theorem exists_int_of_pattern (hint : text ∈ Pattern.int) (ht : text ∈ t.pattern) :
    ∃ n, t = .int n := by
  obtain _ | ⟨c, u⟩ := text
  · exact absurd hint nil_notMem_int
  · have hstart : startOf c = .digit ∨ startOf c = .minus := by
      rcases cons_mem_int_iff.mp hint with ⟨hc, -⟩ | ⟨rfl, -⟩
      · exact .inl (startOf_of_isDigit hc)
      · exact .inr rfl
    have hdigits : ∀ d ∈ u, d.isDigit = true := by
      rcases cons_mem_int_iff.mp hint with ⟨-, hu⟩ | ⟨-, hu⟩
      · exact hu
      · exact (Pattern.mem_run_iff.mp hu).2
    cases t with
    | int n => exact ⟨n, rfl⟩
    | float v =>
      obtain ⟨a, ha, tail, htail, heq⟩ := Language.mem_mul.mp ht
      obtain ⟨d, v, rfl, hd⟩ := noDigitFirst_of_floatTail htail
      obtain _ | ⟨e, a⟩ := a
      · exact absurd ha nil_notMem_int
      · obtain ⟨-, rfl⟩ := List.cons.inj heq
        simp [hdigits d (by simp)] at hd
    | ident name =>
      rw [startOf_of_isIdentStart (Pattern.cons_mem_one_mul_iff.mp ht).1] at hstart
      simp at hstart
    | newline =>
      obtain rfl := of_decide_eq_true (Pattern.cons_mem_one_mul_iff.mp ht).1
      exact absurd hstart (by decide)
    | _ =>
      obtain ⟨rfl, -⟩ := List.cons.inj ht
      exact absurd hstart (by decide)

theorem Recognized.not_unmatched (h : Recognized t text rest) (hne : text ≠ []) :
    ¬ Unmatched rest := by
  intro hnone
  exact hnone text hne h.longest.front (.inr ⟨t, h.pattern⟩)

theorem Recognized.not_overflows (h : Recognized t text rest) (literal : List Char) :
    ¬ Overflows literal rest := by
  rintro ⟨hint, hlongest, hlarge⟩
  obtain rfl := h.longest.unique hlongest (.inr ⟨t, h.pattern⟩) (.inr ⟨.int 0, hint⟩)
  obtain ⟨n, rfl⟩ := exists_int_of_pattern hint h.pattern
  obtain ⟨rfl, hfits⟩ := h.means
  exact hlarge hfits

/-! ## Where pieces stand -/

/-- The pieces with their spans, the first one being at a byte offset. -/
def placed : Nat → List Piece → List (Piece × Span)
  | _, [] => []
  | start, p :: ps =>
    (p, ⟨start, start + byteLength p.text⟩) :: placed (start + byteLength p.text) ps

variable {start : Nat} {ps : List Piece} {p : Piece} {span : Span}

/-- The piece as a token, if it is one. -/
def lexeme? (x : Piece × Span) : Option Lexeme :=
  match x.1.reading with
  | .token t => some ⟨t, x.2⟩
  | _ => none

/-- The piece as a bad stretch, if it is one. -/
def badText? (x : Piece × Span) : Option BadText :=
  match x.1.reading with
  | .bad => some ⟨x.1.text, x.2⟩
  | _ => none

theorem lexeme?_eq_some_iff {x : Piece × Span} {l : Lexeme} :
    lexeme? x = some l ↔ x.1.reading = .token l.token ∧ x.2 = l.span := by
  obtain ⟨⟨reading, text⟩, span⟩ := x
  obtain ⟨token, lspan⟩ := l
  cases reading <;> simp [lexeme?]

theorem badText?_eq_some_iff {x : Piece × Span} {b : BadText} :
    badText? x = some b ↔ x.1 = ⟨.bad, b.text⟩ ∧ x.2 = b.span := by
  obtain ⟨⟨reading, text⟩, span⟩ := x
  obtain ⟨btext, bspan⟩ := b
  cases reading <;> simp [badText?]

theorem lexemes_locate (start : Nat) (ps : List Piece) :
    (locate start ps).lexemes = (placed start ps).filterMap lexeme? := by
  induction ps generalizing start with
  | nil => rfl
  | cons p ps ih =>
    rw [locate, placed, List.filterMap_cons, lexeme?]
    split <;> simp_all

theorem bad_locate (start : Nat) (ps : List Piece) :
    (locate start ps).bad = (placed start ps).filterMap badText? := by
  induction ps generalizing start with
  | nil => rfl
  | cons p ps ih =>
    rw [locate, placed, List.filterMap_cons, badText?]
    split <;> simp_all

theorem mem_placed (h : (p, span) ∈ placed start ps) :
    ∃ before rest, ps = before ++ p :: rest ∧
      span.start = start + byteLength (before.flatMap Piece.text) ∧
      span.stop = span.start + byteLength p.text := by
  induction ps generalizing start with
  | nil => cases h
  | cons q ps ih =>
    rcases List.mem_cons.mp h with heq | h
    · obtain ⟨rfl, rfl⟩ := Prod.mk.inj heq
      exact ⟨[], ps, rfl, rfl, rfl⟩
    · obtain ⟨before, rest, rfl, hstart, hstop⟩ := ih h
      refine ⟨q :: before, rest, rfl, ?_, hstop⟩
      rw [hstart, List.flatMap_cons, byteLength_append, Nat.add_assoc]

/-- Pieces follow one another. -/
theorem pairwise_placed (start : Nat) (ps : List Piece) :
    (placed start ps).Pairwise fun x y => x.2.stop ≤ y.2.start := by
  induction ps generalizing start with
  | nil => exact .nil
  | cons p ps ih =>
    refine List.Pairwise.cons ?_ (ih _)
    rintro ⟨q, span⟩ hq
    obtain ⟨before, rest, -, hstart, -⟩ := mem_placed hq
    simp only [hstart]
    omega

/-! ## What a scan leaves out -/

/-- The byte at an offset belongs to a token or to a bad stretch. -/
def Scan.Covers (s : Scan) (i : Nat) : Prop :=
  ∃ span ∈ s.lexemes.map Lexeme.span ++ s.bad.map BadText.span, span.start ≤ i ∧ i < span.stop

/-- Blanks, and comments up to the ends of their lines, before some other text. -/
inductive Skipped : List Char → List Char → Prop
  | nil (after : List Char) : Skipped [] after
  | blanks {text rest after : List Char} (h : text ∈ Pattern.blanks) (hrest : Skipped rest after) :
    Skipped (text ++ rest) after
  | comment {text rest after : List Char} (h : text ∈ Pattern.comment)
    (hends : EndsLine (rest ++ after)) (hrest : Skipped rest after) : Skipped (text ++ rest) after

/-- The piece covers what is in it, and a skipped piece covers nothing. -/
theorem covers_locate_cons {i : Nat} : (locate start (p :: ps)).Covers i ↔
    (p.reading ≠ .skipped ∧ start ≤ i ∧ i < start + byteLength p.text) ∨
      (locate (start + byteLength p.text) ps).Covers i := by
  unfold Scan.Covers
  rw [locate]
  split
  next hreading => simp [hreading]
  next t hreading => simp [hreading]
  next hreading =>
    simp only [hreading, List.map_cons, List.mem_append, List.mem_cons]
    constructor
    · rintro ⟨span, hspan | rfl | hspan, hcovers⟩
      · exact .inr ⟨span, .inl hspan, hcovers⟩
      · exact .inl ⟨by simp, hcovers⟩
      · exact .inr ⟨span, .inr hspan, hcovers⟩
    · rintro (⟨-, hcovers⟩ | ⟨span, hspan | hspan, hcovers⟩)
      · exact ⟨_, .inr (.inl rfl), hcovers⟩
      · exact ⟨span, .inl hspan, hcovers⟩
      · exact ⟨span, .inr (.inr hspan), hcovers⟩

theorem not_covers_locate_nil {i : Nat} : ¬ (locate start []).Covers i := by
  rintro ⟨span, hspan, -⟩
  cases hspan

theorem le_of_covers {i : Nat} (h : (locate start ps).Covers i) : start ≤ i := by
  induction ps generalizing start with
  | nil => exact absurd h not_covers_locate_nil
  | cons p ps ih =>
    rcases covers_locate_cons.mp h with ⟨-, hle, -⟩ | h
    · exact hle
    · exact Nat.le_of_add_right_le (ih h)

/-- Every piece is what it is read as, before the pieces that follow it. -/
def HoldsThroughout (ps : List Piece) : Prop :=
  ∀ before p rest, ps = before ++ p :: rest →
    p.text ≠ [] ∧ p.reading.Holds p.text (rest.flatMap Piece.text)

theorem HoldsThroughout.tail (h : HoldsThroughout (p :: ps)) : HoldsThroughout ps :=
  fun before q rest heq => h (p :: before) q rest (by rw [heq]; rfl)

variable {a b : Nat}

/-- What lies between the start and the first byte that is covered is skipped. -/
theorem skipped_front (hps : HoldsThroughout ps) (hstart : start ≤ b)
    (huncovered : ∀ i, start ≤ i → i < b → ¬ (locate start ps).Covers i)
    (hend : b = start + byteLength (ps.flatMap Piece.text) ∨ (locate start ps).Covers b) :
    ∃ text after, ps.flatMap Piece.text = text ++ after ∧ b = start + byteLength text ∧
      Skipped text after := by
  induction ps generalizing start with
  | nil =>
    rcases hend with rfl | hend
    · exact ⟨[], [], rfl, rfl, .nil []⟩
    · exact absurd hend not_covers_locate_nil
  | cons p ps ih =>
    obtain ⟨hne, hholds⟩ := hps [] p ps rfl
    have hpos := byteLength_pos hne
    rw [List.flatMap_cons] at hend ⊢
    by_cases hskipped : p.reading = .skipped
    · have hnext : start + byteLength p.text ≤ b := by
        rcases hend with rfl | hend
        · rw [byteLength_append]
          omega
        · rcases covers_locate_cons.mp hend with ⟨hreading, -⟩ | hend
          · exact absurd hskipped hreading
          · exact le_of_covers hend
      obtain ⟨text, after, htext, hb, hskip⟩ := ih hps.tail hnext
        (fun i hi hib hcovers =>
          huncovered i (by omega) hib (covers_locate_cons.mpr (.inr hcovers)))
        (by
          refine hend.imp ?_ fun hcovers => (covers_locate_cons.mp hcovers).resolve_left ?_
          · rw [byteLength_append, Nat.add_assoc]
            exact id
          · exact fun hcovers => hcovers.1 hskipped)
      rw [hskipped] at hholds
      refine ⟨p.text ++ text, after, by rw [htext, List.append_assoc], ?_, ?_⟩
      · rw [hb, byteLength_append, Nat.add_assoc]
      · rcases hholds with hblanks | ⟨hcomment, hends⟩
        · exact .blanks hblanks hskip
        · exact .comment hcomment (htext ▸ hends) hskip
    · -- The first piece is covered, so that nothing lies before the first covered byte.
      have hb : b = start := by
        by_contra hne
        exact huncovered start (Nat.le_refl _) (by omega)
          (covers_locate_cons.mpr (.inl ⟨hskipped, Nat.le_refl _, by omega⟩))
      exact ⟨[], _, rfl, hb, .nil _⟩

/-- A stretch that a scan leaves out, as long as it can be. -/
structure Gap (s : Scan) (low high a b : Nat) : Prop where
  lower : low ≤ a
  nonempty : a < b
  upper : b ≤ high
  uncovered : ∀ i, a ≤ i → i < b → ¬ s.Covers i
  left : a = low ∨ s.Covers (a - 1)
  right : b = high ∨ s.Covers b

theorem Gap.skipped (hps : HoldsThroughout ps)
    (h : Gap (locate start ps) start (start + byteLength (ps.flatMap Piece.text)) a b) :
    ∃ before text after, ps.flatMap Piece.text = before ++ text ++ after ∧
      a = start + byteLength before ∧ b = a + byteLength text ∧ Skipped text after := by
  induction ps generalizing start with
  | nil =>
    have hupper := h.upper
    rw [List.flatMap_nil, byteLength_nil] at hupper
    exact absurd (Nat.lt_of_le_of_lt h.lower h.nonempty) (by omega)
  | cons p ps ih =>
    obtain ⟨hlower, hnonempty, hupper, huncovered, hleft, hright⟩ := h
    by_cases hstart : a = start
    · subst hstart
      obtain ⟨text, after, htext, hb, hskip⟩ :=
        skipped_front hps (Nat.le_of_lt hnonempty) huncovered hright
      exact ⟨[], text, after, htext, rfl, hb, hskip⟩
    · have hcovers := hleft.resolve_left hstart
      -- The gap starts where something ends, and that is not within the first piece.
      have hnext : start + byteLength p.text ≤ a := by
        by_contra hwithin
        rcases covers_locate_cons.mp hcovers with ⟨hreading, -, -⟩ | hcovers
        · exact huncovered a (Nat.le_refl a) hnonempty
            (covers_locate_cons.mpr (.inl ⟨hreading, hlower, by omega⟩))
        · have := le_of_covers hcovers
          omega
      have hlater : ∀ i, start + byteLength p.text ≤ i → (locate start (p :: ps)).Covers i →
          (locate (start + byteLength p.text) ps).Covers i := by
        intro i hi hcovers
        refine (covers_locate_cons.mp hcovers).resolve_left fun hfirst => ?_
        omega
      rw [List.flatMap_cons, byteLength_append, ← Nat.add_assoc] at hupper hright
      obtain ⟨before, text, after, htext, ha, hb, hskip⟩ := ih hps.tail
        { lower := hnext
          nonempty := hnonempty
          upper := hupper
          uncovered := fun i hai hib hcovers =>
            huncovered i hai hib (covers_locate_cons.mpr (.inr hcovers))
          left := by
            by_cases hfirst : a = start + byteLength p.text
            · exact .inl hfirst
            · exact .inr (hlater _ (by omega) hcovers)
          right := hright.imp id (hlater b (by omega)) }
      refine ⟨p.text ++ before, text, after, ?_, ?_, hb, hskip⟩
      · rw [List.flatMap_cons, htext]
        simp only [List.append_assoc]
      · rw [ha, byteLength_append, Nat.add_assoc]

/-! ## Scans -/

/-- The span is where the text stands in the source. -/
structure Stands (source : List Char) (span : Span) (before text after : List Char) : Prop where
  source_eq : source = before ++ text ++ after
  start : span.start = byteLength before
  stop : span.stop = byteLength before + byteLength text

/-- The scan says everything there is to say of the source, and says it in the right places. Since
every span is that of a text, spans lie within the source and start and end between characters. -/
structure Lossless (source : List Char) (s : Scan) : Prop where
  /-- A token is recognized for what it is, and nothing is wrong with it. -/
  tokens : ∀ l ∈ s.lexemes, l.span.start < l.span.stop ∧ ∃ before text after,
    Stands source l.span before text after ∧ Recognized l.token text (text ++ after) ∧
      ¬ Unmatched (text ++ after) ∧ ∀ literal, ¬ Overflows literal (text ++ after)
  /-- What is bad is a character that starts no word, or a whole number that does not fit. -/
  bad : ∀ b ∈ s.bad, b.span.start < b.span.stop ∧ ∃ before after,
    Stands source b.span before b.text after ∧
      ((Unmatched (b.text ++ after) ∧ ∃ c, b.text = [c]) ∨ Overflows b.text (b.text ++ after))
  tokens_ordered : s.lexemes.Pairwise fun l l' => l.span.stop ≤ l'.span.start
  bad_ordered : s.bad.Pairwise fun b b' => b.span.stop ≤ b'.span.start
  disjoint : ∀ l ∈ s.lexemes, ∀ b ∈ s.bad,
    l.span.stop ≤ b.span.start ∨ b.span.stop ≤ l.span.start
  /-- What is left out is skipped. -/
  gaps : ∀ a b, Gap s 0 (byteLength source) a b → ∃ before text after,
    Stands source ⟨a, b⟩ before text after ∧ Skipped text after

variable {source : List Char} {l : Lexeme} {x : BadText}

theorem mem_lexemes_scan (h : l ∈ (scan source).lexemes) :
    ∃ p, (p, l.span) ∈ placed 0 (pieces source) ∧ p.reading = .token l.token := by
  rw [scan, lexemes_locate] at h
  obtain ⟨⟨p, span⟩, hp, heq⟩ := List.mem_filterMap.mp h
  obtain ⟨hreading, rfl⟩ := lexeme?_eq_some_iff.mp heq
  exact ⟨p, hp, hreading⟩

theorem mem_bad_scan (h : x ∈ (scan source).bad) :
    (⟨.bad, x.text⟩, x.span) ∈ placed 0 (pieces source) := by
  rw [scan, bad_locate] at h
  obtain ⟨⟨p, span⟩, hp, heq⟩ := List.mem_filterMap.mp h
  obtain ⟨rfl, rfl⟩ := badText?_eq_some_iff.mp heq
  exact hp

/-- A piece stands in the source where its span is, and is what it is read as. -/
theorem holds_of_placed (h : (p, span) ∈ placed 0 (pieces source)) :
    p.text ≠ [] ∧ span.start < span.stop ∧ ∃ before after,
      Stands source span before p.text after ∧ p.reading.Holds p.text after := by
  obtain ⟨before, rest, hsplit, hstart, hstop⟩ := mem_placed h
  have hmem : p ∈ pieces source := hsplit ▸ List.mem_append_right _ List.mem_cons_self
  have hne : p.text ≠ [] := ne_nil_of_mem_pieces hmem
  have hpos := byteLength_pos hne
  rw [Nat.zero_add] at hstart
  refine ⟨hne, by omega, before.flatMap Piece.text, rest.flatMap Piece.text,
    ⟨?_, hstart, by rw [hstop, hstart]⟩, holds_of_split hsplit⟩
  rw [← text_pieces source, hsplit, List.flatMap_append, List.flatMap_cons, List.append_assoc]

/-- Tokens and bad stretches with their places are all there is to a source but what is skipped. -/
theorem scan_lossless (source : List Char) : Lossless source (scan source) where
  tokens := by
    intro l hl
    obtain ⟨p, hp, hreading⟩ := mem_lexemes_scan hl
    obtain ⟨hne, hlt, before, after, hstands, hholds⟩ := holds_of_placed hp
    rw [hreading] at hholds
    exact ⟨hlt, before, p.text, after, hstands, hholds, hholds.not_unmatched hne,
      hholds.not_overflows⟩
  bad := by
    intro b hb
    obtain ⟨-, hlt, before, after, hstands, hholds⟩ := holds_of_placed (mem_bad_scan hb)
    exact ⟨hlt, before, after, hstands, hholds⟩
  tokens_ordered := by
    rw [scan, lexemes_locate, List.pairwise_filterMap]
    refine (pairwise_placed 0 (pieces source)).imp ?_
    intro x y hle l hl l' hl'
    rw [(lexeme?_eq_some_iff.mp hl).2, (lexeme?_eq_some_iff.mp hl').2] at hle
    exact hle
  bad_ordered := by
    rw [scan, bad_locate, List.pairwise_filterMap]
    refine (pairwise_placed 0 (pieces source)).imp ?_
    intro x y hle b hb b' hb'
    rw [(badText?_eq_some_iff.mp hb).2, (badText?_eq_some_iff.mp hb').2] at hle
    exact hle
  disjoint := by
    intro l hl b hb
    obtain ⟨p, hp, hreading⟩ := mem_lexemes_scan hl
    have hne : (p, l.span) ≠ (⟨.bad, b.text⟩, b.span) := by
      intro heq
      rw [(Prod.mk.inj heq).1] at hreading
      cases hreading
    have hapart : (placed 0 (pieces source)).Pairwise fun x y =>
        x.2.stop ≤ y.2.start ∨ y.2.stop ≤ x.2.start :=
      (pairwise_placed 0 (pieces source)).imp .inl
    have : Std.Symm fun x y : Piece × Span => x.2.stop ≤ y.2.start ∨ y.2.stop ≤ x.2.start :=
      ⟨fun _ _ => Or.symm⟩
    exact hapart.forall hp (mem_bad_scan hb) hne
  gaps := by
    intro a b hgap
    have hps : HoldsThroughout (pieces source) := by
      intro before p rest hsplit
      have hmem : p ∈ pieces source := hsplit ▸ List.mem_append_right _ List.mem_cons_self
      exact ⟨ne_nil_of_mem_pieces hmem, holds_of_split hsplit⟩
    have hlength : byteLength source = 0 + byteLength ((pieces source).flatMap Piece.text) := by
      rw [text_pieces, Nat.zero_add]
    rw [hlength] at hgap
    obtain ⟨before, text, after, htext, ha, hb, hskip⟩ := hgap.skipped hps
    rw [text_pieces] at htext
    rw [Nat.zero_add] at ha
    exact ⟨before, text, after, ⟨htext, ha, by rw [hb, ha]⟩, hskip⟩

end Source

end TensorIR
