import Mathlib.Computability.Language
import Mathlib.Data.List.TakeWhile
import TensorIR.Source.Lexer

/-!
# The patterns of tokens

Every kind of token is a regular set of texts (`Token.pattern`), and so is what is passed over
between tokens (`Pattern.skipped`). The cutter knows nothing of patterns: it looks at one character
and takes what may follow it. The two are brought together here, piece by piece.

The first character of a word decides the kind of the word up to the tail of a number
(`Start.tails`). So it is enough to see that after each first character the cutter takes the longest
text that may follow it (`length_le_readPiece`), and to list what it can cut off (`cut_readPiece`).
-/

set_option autoImplicit false

namespace TensorIR

open Computability

namespace Source

/-! ## Patterns -/

namespace Pattern

/-- One character of a class. -/
def one (p : Char → Bool) : Language Char := {w | ∃ c, p c = true ∧ w = [c]}

/-- One or more characters of a class. -/
def run (p : Char → Bool) : Language Char := one p * (one p)∗

/-- The pattern or nothing. -/
def optional (l : Language Char) : Language Char := 1 + l

def digits : Language Char := run Char.isDigit

def exponent : Language Char :=
  one (fun c => c = 'e' || c = 'E') * (optional (one fun c => c = '+' || c = '-') * digits)

def fraction : Language Char := one (· = '.') * digits

/-- What makes a float of an integer. -/
def floatTail : Language Char := fraction * optional exponent + exponent

/-- A whole number, with a minus sign or without. -/
def int : Language Char := optional (one (· = '-')) * digits

def float : Language Char := int * floatTail

def ident : Language Char := one isIdentStart * (one isIdentPart)∗

def newlines : Language Char := run (· = '\n')

/-- Blanks within a line. -/
def blanks : Language Char := run isSpace

/-- A comment without the end of its line. -/
def comment : Language Char := one (· = '#') * (one (· ≠ '\n'))∗

def skipped : Language Char := blanks + comment

variable {p : Char → Bool} {l m : Language Char} {w : List Char} {c : Char}

theorem mem_star_iff : w ∈ (one p)∗ ↔ ∀ c ∈ w, p c = true := by
  rw [Language.mem_kstar]
  constructor
  · rintro ⟨parts, rfl, hparts⟩ c hc
    obtain ⟨part, hpart, hc⟩ := List.mem_flatten.mp hc
    obtain ⟨d, hd, rfl⟩ := hparts part hpart
    rwa [List.mem_singleton.mp hc]
  · intro h
    refine ⟨w.map fun c => [c], ?_, fun part hpart => ?_⟩
    · rw [← List.flatMap_def, List.flatMap_singleton']
    · obtain ⟨c, hc, rfl⟩ := List.mem_map.mp hpart
      exact ⟨c, h c hc, rfl⟩

theorem cons_mem_one_mul_iff : c :: w ∈ one p * m ↔ p c = true ∧ w ∈ m := by
  rw [Language.mem_mul]
  constructor
  · rintro ⟨a, ⟨d, hd, rfl⟩, b, hb, heq⟩
    obtain ⟨rfl, rfl⟩ := List.cons.inj heq
    exact ⟨hd, hb⟩
  · rintro ⟨hc, hw⟩
    exact ⟨[c], ⟨c, hc, rfl⟩, w, hw, rfl⟩

theorem nil_notMem_one_mul : [] ∉ one p * m := by
  rintro ⟨a, ⟨d, -, rfl⟩, b, -, heq⟩
  cases heq

theorem cons_mem_run_iff : c :: w ∈ run p ↔ p c = true ∧ ∀ d ∈ w, p d = true := by
  rw [run, cons_mem_one_mul_iff, mem_star_iff]

theorem mem_run_iff : w ∈ run p ↔ w ≠ [] ∧ ∀ d ∈ w, p d = true := by
  cases w with
  | nil => exact ⟨fun h => absurd h nil_notMem_one_mul, fun h => absurd rfl h.1⟩
  | cons c w => simp [cons_mem_run_iff]

end Pattern

end Source

/-- The texts that a token of this kind may stand for. -/
def Token.pattern : Token → Language Char
  | .leftParen => {['(']}
  | .rightParen => {[')']}
  | .leftBracket => {['[']}
  | .rightBracket => {[']']}
  | .comma => {[',']}
  | .equals => {['=']}
  | .question => {['?']}
  | .float _ => Source.Pattern.float
  | .int _ => Source.Pattern.int
  | .ident _ => Source.Pattern.ident
  | .newline => Source.Pattern.newlines

namespace Source

open Pattern

variable {c : Char} {cs u w : List Char}

/-- The text is a token of some kind, or is passed over. -/
def Lexical (w : List Char) : Prop := w ∈ skipped ∨ ∃ t : Token, w ∈ t.pattern

/-! ## First characters -/

/-- What a word is, as far as its first character tells. -/
inductive Start where
  | blank
  | comment
  | lineBreak
  | letter
  | symbol
  | digit
  | minus
  /-- No word starts like this. -/
  | other
deriving DecidableEq

def startOf (c : Char) : Start :=
  if isSpace c then .blank
  else if c = '#' then .comment
  else if c = '\n' then .lineBreak
  else if isIdentStart c then .letter
  else if (symbol? c).isSome then .symbol
  else if c.isDigit then .digit
  else if c = '-' then .minus
  else .other

/-- What may follow the first character of a word. -/
def Start.tails : Start → Language Char
  | .blank => (one isSpace)∗
  | .comment => (one (· ≠ '\n'))∗
  | .lineBreak => (one (· = '\n'))∗
  | .letter => (one isIdentPart)∗
  | .symbol => 1
  | .digit => (one Char.isDigit)∗ * optional floatTail
  | .minus => digits * optional floatTail
  | .other => 0

theorem startOf_of_isSpace (h : isSpace c = true) : startOf c = .blank := by
  simp [startOf, h]

theorem not_isIdentStart_of_isDigit (h : c.isDigit = true) : ¬ isIdentStart c = true := by
  intro hletter
  have hrange : (decide (48 ≤ c.val) && decide (c.val ≤ 57)) = true := h
  have hcases : (decide (65 ≤ c.val ∧ c.val ≤ 90) ||
      (decide (97 ≤ c.val) && decide (c.val ≤ 122)) || decide (c = '_')) = true := hletter
  have hunderscore : c ≠ '_' := by rintro rfl; revert h; decide
  simp [UInt32.le_iff_toNat_le, hunderscore] at hrange hcases
  omega

theorem not_isSpace_of_mem (p : Char → Bool) (hp : p ' ' = false ∧ p '\t' = false ∧ p '\r' = false)
    (h : p c = true) : ¬ isSpace c = true := by
  intro hspace
  simp only [isSpace, Bool.or_eq_true, decide_eq_true_eq] at hspace
  rcases hspace with (rfl | rfl) | rfl <;> simp_all

theorem startOf_of_isIdentStart (h : isIdentStart c = true) : startOf c = .letter := by
  have hspace : ¬ isSpace c = true := not_isSpace_of_mem isIdentStart (by decide) h
  have hcomment : c ≠ '#' := by rintro rfl; revert h; decide
  have hline : c ≠ '\n' := by rintro rfl; revert h; decide
  simp [startOf, hspace, hcomment, hline, h]

theorem startOf_of_isDigit (h : c.isDigit = true) : startOf c = .digit := by
  have hspace : ¬ isSpace c = true := not_isSpace_of_mem Char.isDigit (by decide) h
  have hcomment : c ≠ '#' := by rintro rfl; revert h; decide
  have hline : c ≠ '\n' := by rintro rfl; revert h; decide
  have hsymbol : symbol? c = none := by
    unfold symbol?
    repeat' rw [if_neg (by rintro rfl; revert h; decide)]
  simp [startOf, hspace, hcomment, hline, not_isIdentStart_of_isDigit h, hsymbol, h]

/-! ## Numbers -/

theorem cons_mem_int_iff :
    c :: u ∈ int ↔ (c.isDigit = true ∧ ∀ d ∈ u, d.isDigit = true) ∨ (c = '-' ∧ u ∈ digits) := by
  rw [int, Language.mem_mul]
  constructor
  · rintro ⟨a, rfl | ⟨d, hd, rfl⟩, b, hb, heq⟩
    · rw [List.nil_append] at heq
      exact .inl (cons_mem_run_iff.mp (heq ▸ hb))
    · obtain ⟨rfl, rfl⟩ := List.cons.inj heq
      exact .inr ⟨of_decide_eq_true hd, hb⟩
  · rintro (h | ⟨rfl, h⟩)
    · exact ⟨[], .inl rfl, _, cons_mem_run_iff.mpr h, rfl⟩
    · exact ⟨['-'], .inr ⟨'-', rfl, rfl⟩, u, h, rfl⟩

theorem nil_notMem_int : [] ∉ int := by
  rintro ⟨a, -, b, hb, heq⟩
  obtain ⟨-, rfl⟩ := List.append_eq_nil_iff.mp heq
  exact nil_notMem_one_mul hb

/-- The text starts with a character that is no digit. -/
def NoDigitFirst (u : List Char) : Prop := ∃ c v, u = c :: v ∧ c.isDigit = false

theorem noDigitFirst_of_exponent (h : u ∈ exponent) : NoDigitFirst u := by
  obtain ⟨a, ⟨c, hc, rfl⟩, b, -, rfl⟩ := Language.mem_mul.mp h
  simp only [Bool.or_eq_true, decide_eq_true_eq] at hc
  refine ⟨c, b, rfl, ?_⟩
  rcases hc with rfl | rfl <;> decide

theorem noDigitFirst_of_floatTail (h : u ∈ floatTail) : NoDigitFirst u := by
  rcases h with ⟨a, ha, b, -, rfl⟩ | h
  · obtain ⟨point, ⟨c, hc, rfl⟩, ds, -, rfl⟩ := Language.mem_mul.mp ha
    obtain rfl := of_decide_eq_true hc
    exact ⟨'.', ds ++ b, rfl, by decide⟩
  · exact noDigitFirst_of_exponent h

theorem digitsOf_append (hu : ∀ d ∈ u, d.isDigit = true) (w : List Char) :
    digitsOf (u ++ w) = u ++ digitsOf w := List.takeWhile_append_of_pos hu

theorem NoDigitFirst.digitsOf_eq (h : NoDigitFirst u) (w : List Char) : digitsOf (u ++ w) = [] := by
  obtain ⟨c, v, rfl, hc⟩ := h
  exact List.takeWhile_cons_of_neg (by simp [hc])

theorem isDigit_of_mem_digitsOf {d : Char} (h : d ∈ digitsOf cs) : d.isDigit = true :=
  List.mem_takeWhile_imp h

theorem digitsOf_mem (h : digitsOf cs ≠ []) : digitsOf cs ∈ digits :=
  mem_run_iff.mpr ⟨h, fun _ => isDigit_of_mem_digitsOf⟩

theorem exponentOf?_mem {e : List Char} (h : exponentOf? cs = some e) : e ∈ exponent := by
  have mem : ∀ (marker : Char) (sign ds : List Char), marker = 'e' ∨ marker = 'E' →
      (sign = [] ∨ sign = ['+'] ∨ sign = ['-']) → digitsOf ds ≠ [] →
      marker :: sign ++ digitsOf ds ∈ exponent := by
    intro marker sign ds hmarker hsign hds
    refine cons_mem_one_mul_iff.mpr ⟨by simpa using hmarker, ?_⟩
    refine Language.append_mem_mul ?_ (digitsOf_mem hds)
    rcases hsign with rfl | rfl | rfl
    · exact .inl rfl
    · exact .inr ⟨'+', rfl, rfl⟩
    · exact .inr ⟨'-', rfl, rfl⟩
  cases cs with
  | nil => simp [exponentOf?] at h
  | cons marker rest =>
    simp only [exponentOf?, Option.ite_none_right_eq_some] at h
    obtain ⟨hmarker, h⟩ := h
    cases rest with
    | nil => simp [digitsOf] at h
    | cons sign rest =>
      simp only [Option.ite_none_left_eq_some, List.isEmpty_iff, Option.some.injEq] at h
      obtain ⟨hdigits, rfl⟩ := h
      by_cases hsign : sign = '+' ∨ sign = '-'
      · simp only [if_pos hsign] at hdigits ⊢
        exact mem _ _ _ hmarker (by simpa using hsign) hdigits
      · simp only [if_neg hsign] at hdigits ⊢
        exact mem _ _ _ hmarker (.inl rfl) hdigits

theorem length_le_exponentOf? (hu : u <+: cs) (h : u ∈ exponent) :
    ∃ e, exponentOf? cs = some e ∧ u.length ≤ e.length := by
  obtain ⟨rest, rfl⟩ := hu
  obtain ⟨a, ⟨marker, hmarker, rfl⟩, b, hb, rfl⟩ := Language.mem_mul.mp h
  obtain ⟨sign, hsign, ds, hds, rfl⟩ := Language.mem_mul.mp hb
  obtain ⟨hne, hds⟩ := mem_run_iff.mp hds
  have hmark : marker = 'e' ∨ marker = 'E' := by simpa using hmarker
  have hdigits : digitsOf (ds ++ rest) = ds ++ digitsOf rest := digitsOf_append hds rest
  rcases hsign with rfl | ⟨sign, hsign, rfl⟩
  · obtain ⟨d, ds, rfl⟩ := List.exists_cons_of_ne_nil hne
    have hd : ¬ (d = '+' ∨ d = '-') := by
      have := hds d List.mem_cons_self
      rintro (rfl | rfl) <;> revert this <;> decide
    refine ⟨marker :: (d :: ds ++ digitsOf rest), ?_, by simp⟩
    simp only [List.cons_append] at hdigits
    simp [exponentOf?, hmark, hd, hdigits]
  · have hsign : sign = '+' ∨ sign = '-' := by simpa using hsign
    refine ⟨marker :: sign :: (ds ++ digitsOf rest), ?_, by simp⟩
    simp [exponentOf?, hmark, hsign, hdigits, hne]

theorem fractionOf?_mem {f : List Char} (h : fractionOf? cs = some f) : f ∈ fraction := by
  unfold fractionOf? at h
  split at h
  next rest =>
    split at h
    · cases h
    next hdigits =>
      obtain rfl := Option.some.inj h
      rw [List.isEmpty_iff] at hdigits
      exact cons_mem_one_mul_iff.mpr ⟨rfl, digitsOf_mem hdigits⟩
  next => cases h

theorem numberTail_of_fraction {f : List Char} (h : fractionOf? cs = some f) :
    numberTail cs = f ++ (exponentOf? (cs.drop f.length)).getD [] := by
  simp only [numberTail, h]

theorem numberTail_of_no_fraction (h : fractionOf? cs = none) :
    numberTail cs = (exponentOf? cs).getD [] := by
  simp only [numberTail, h]

/-- Nothing that makes a float of an integer is lost. -/
theorem length_le_numberTail (hu : u <+: cs) (h : u ∈ floatTail) :
    u.length ≤ (numberTail cs).length := by
  obtain ⟨rest, rfl⟩ := hu
  rcases h with ⟨a, ha, b, hb, rfl⟩ | h
  · obtain ⟨point, ⟨c, hc, rfl⟩, ds, hds, rfl⟩ := Language.mem_mul.mp ha
    obtain rfl := of_decide_eq_true hc
    obtain ⟨hne, hds⟩ := mem_run_iff.mp hds
    have hdigits : digitsOf (ds ++ (b ++ rest)) = ds ++ digitsOf (b ++ rest) :=
      digitsOf_append hds _
    have hfraction : fractionOf? ('.' :: (ds ++ (b ++ rest))) =
        some ('.' :: (ds ++ digitsOf (b ++ rest))) := by
      simp [fractionOf?, hdigits, hne]
    have hsource : ['.'] ++ ds ++ b ++ rest = '.' :: (ds ++ (b ++ rest)) := by simp
    rw [hsource, numberTail_of_fraction hfraction]
    rcases hb with rfl | hb
    · simp
    · obtain ⟨e, he, hlength⟩ := length_le_exponentOf? (List.prefix_append b rest) hb
      have hdrop : List.drop ('.' :: (ds ++ digitsOf (b ++ rest))).length
          ('.' :: (ds ++ (b ++ rest))) = b ++ rest := by
        simp [(noDigitFirst_of_exponent hb).digitsOf_eq rest]
      rw [hdrop, he]
      simp
      omega
  · obtain ⟨e, he, hlength⟩ := length_le_exponentOf? (List.prefix_append u rest) h
    have hfraction : fractionOf? (u ++ rest) = none := by
      obtain ⟨a, ⟨c, hc, rfl⟩, b, -, rfl⟩ := Language.mem_mul.mp h
      have hpoint : c ≠ '.' := by rintro rfl; revert hc; decide
      unfold fractionOf?
      split
      next heq => exact absurd (List.cons.inj heq).1 hpoint
      next => rfl
    rw [numberTail_of_no_fraction hfraction, he]
    exact hlength

theorem numberTail_mem (cs : List Char) : numberTail cs ∈ optional floatTail := by
  unfold numberTail
  split
  next f hf =>
    refine .inr (.inl (Language.append_mem_mul (fractionOf?_mem hf) ?_))
    cases he : exponentOf? (cs.drop f.length) with
    | none => exact .inl rfl
    | some e => exact .inr (exponentOf?_mem he)
  next =>
    cases he : exponentOf? cs with
    | none => exact .inl rfl
    | some e => exact .inr (.inr (exponentOf?_mem he))

/-- Nor is anything of a number: its digits end where its tail starts. -/
theorem length_le_number (hu : ∀ d ∈ u, d.isDigit = true) (hw : w ∈ optional floatTail)
    (h : u ++ w <+: cs) :
    (u ++ w).length ≤ (digitsOf cs ++ numberTail (cs.drop (digitsOf cs).length)).length := by
  obtain ⟨rest, rfl⟩ := h
  rw [List.append_assoc, digitsOf_append hu]
  rcases hw with rfl | hw
  · simp
  · have hdrop : (u ++ (w ++ rest)).drop (u ++ digitsOf (w ++ rest)).length = w ++ rest := by
      simp [(noDigitFirst_of_floatTail hw).digitsOf_eq rest]
    rw [hdrop]
    have := length_le_numberTail (List.prefix_append w rest) hw
    simp
    omega

/-! ## The first character decides -/

theorem mem_tails_of_lexical (h : Lexical (c :: u)) : u ∈ (startOf c).tails := by
  rcases h with (hblanks | hcomment) | ⟨t, ht⟩
  · obtain ⟨hc, hu⟩ := cons_mem_run_iff.mp hblanks
    rw [startOf_of_isSpace hc]
    exact mem_star_iff.mpr hu
  · obtain ⟨hc, hu⟩ := cons_mem_one_mul_iff.mp hcomment
    obtain rfl := of_decide_eq_true hc
    exact hu
  · cases t with
    | float value =>
      obtain ⟨a, ha, b, hb, heq⟩ := Language.mem_mul.mp ht
      obtain _ | ⟨d, a⟩ := a
      · exact absurd ha nil_notMem_int
      · obtain ⟨rfl, rfl⟩ := List.cons.inj heq
        rcases cons_mem_int_iff.mp ha with ⟨hd, hdigits⟩ | ⟨rfl, hdigits⟩
        · rw [startOf_of_isDigit hd]
          exact Language.append_mem_mul (mem_star_iff.mpr hdigits) (.inr hb)
        · exact Language.append_mem_mul hdigits (.inr hb)
    | int value =>
      rcases cons_mem_int_iff.mp ht with ⟨hc, hu⟩ | ⟨rfl, hu⟩
      · rw [startOf_of_isDigit hc, ← List.append_nil u]
        exact Language.append_mem_mul (mem_star_iff.mpr hu) (.inl rfl)
      · rw [← List.append_nil u]
        exact Language.append_mem_mul hu (.inl rfl)
    | ident name =>
      obtain ⟨hc, hu⟩ := cons_mem_one_mul_iff.mp ht
      rw [startOf_of_isIdentStart hc]
      exact hu
    | newline =>
      obtain ⟨hc, hu⟩ := cons_mem_run_iff.mp ht
      obtain rfl := of_decide_eq_true hc
      exact mem_star_iff.mpr hu
    | _ =>
      obtain ⟨rfl, rfl⟩ := List.cons.inj ht
      exact rfl

/-! ## Pieces -/

/-- The piece of a number: its digits, and what follows them and belongs to it. -/
def numberPiece (c : Char) (cs : List Char) : Reading × List Char :=
  let tail := numberTail (cs.drop (digitsOf cs).length)
  (readNumber (c :: (digitsOf cs ++ tail)) tail, digitsOf cs ++ tail)

/-- What is cut off after a first character, by the kind of that character. -/
inductive Cut (c : Char) (cs : List Char) : Reading × List Char → Prop
  | blank (hstart : startOf c = .blank) (hc : isSpace c = true) :
    Cut c cs (.skipped, cs.takeWhile isSpace)
  | comment (hstart : startOf c = .comment) (hc : c = '#') :
    Cut c cs (.skipped, cs.takeWhile (· ≠ '\n'))
  | lineBreak (hstart : startOf c = .lineBreak) (hc : c = '\n') :
    Cut c cs (.token .newline, cs.takeWhile (· = '\n'))
  | letter (hstart : startOf c = .letter) (hc : isIdentStart c = true) :
    Cut c cs (.token (.ident (String.ofList (c :: cs.takeWhile isIdentPart))),
      cs.takeWhile isIdentPart)
  | symbol {t : Token} (hstart : startOf c = .symbol) (hc : symbol? c = some t) :
    Cut c cs (.token t, [])
  | digit (hstart : startOf c = .digit) (hc : c.isDigit = true) : Cut c cs (numberPiece c cs)
  | minus (hstart : startOf c = .minus) (hc : c = '-') (hdigits : digitsOf cs ≠ []) :
    Cut c cs (numberPiece c cs)
  | loneMinus (hstart : startOf c = .minus) (hdigits : digitsOf cs = []) : Cut c cs (.bad, [])
  | other (hstart : startOf c = .other) : Cut c cs (.bad, [])

theorem cut_readPiece (c : Char) (cs : List Char) : Cut c cs (readPiece c cs) := by
  unfold readPiece
  split
  next hspace => exact .blank (startOf_of_isSpace hspace) hspace
  next hspace =>
    split
    next hcomment => exact .comment (by rw [hcomment]; decide) hcomment
    next hcomment =>
      split
      next hline => exact .lineBreak (by rw [hline]; decide) hline
      next hline =>
        split
        next hletter => exact .letter (startOf_of_isIdentStart hletter) hletter
        next hletter =>
          split
          next t hsymbol =>
            exact .symbol (by simp [startOf, hspace, hcomment, hline, hletter, hsymbol]) hsymbol
          next hsymbol =>
            by_cases hdigit : c.isDigit = true
            · have hwhole : wholeAfter? c cs = some (digitsOf cs) := by simp [wholeAfter?, hdigit]
              rw [hwhole]
              exact .digit (startOf_of_isDigit hdigit) hdigit
            · by_cases hminus : c = '-'
              · have hstart : startOf c = .minus := by rw [hminus]; decide
                by_cases hdigits : digitsOf cs = []
                · have hwhole : wholeAfter? c cs = none := by
                    simp [wholeAfter?, hdigit, hdigits]
                  rw [hwhole]
                  exact .loneMinus hstart hdigits
                · have hwhole : wholeAfter? c cs = some (digitsOf cs) := by
                    simp [wholeAfter?, hminus, hdigits]
                  rw [hwhole]
                  exact .minus hstart hminus hdigits
              · have hwhole : wholeAfter? c cs = none := by simp [wholeAfter?, hdigit, hminus]
                rw [hwhole]
                refine .other ?_
                simp [startOf, hspace, hcomment, hline, hletter, hsymbol, hdigit, hminus]

theorem length_le_takeWhile {p : Char → Bool} (hu : u <+: cs) (h : ∀ d ∈ u, p d = true) :
    u.length ≤ (cs.takeWhile p).length := by
  obtain ⟨rest, rfl⟩ := hu
  rw [List.takeWhile_append_of_pos h]
  simp

theorem not_lexical_of_loneMinus (hstart : startOf c = .minus) (hdigits : digitsOf cs = [])
    (hu : u <+: cs) : ¬ Lexical (c :: u) := by
  intro h
  have htails := mem_tails_of_lexical h
  rw [hstart] at htails
  obtain ⟨ds, hds, tail, -, rfl⟩ := Language.mem_mul.mp htails
  obtain ⟨hne, hds⟩ := mem_run_iff.mp hds
  have hlength := length_le_takeWhile ((List.prefix_append ds tail).trans hu) hds
  rw [show cs.takeWhile Char.isDigit = [] from hdigits] at hlength
  exact hne (List.length_eq_zero_iff.mp (Nat.le_zero.mp hlength))

theorem not_lexical_of_other (hstart : startOf c = .other) : ¬ Lexical (c :: u) := by
  intro h
  have htails := mem_tails_of_lexical h
  rw [hstart] at htails
  exact Language.notMem_zero u htails

/-- No word is longer than the piece that starts where it starts. -/
theorem length_le_readPiece (hu : u <+: cs) (h : Lexical (c :: u)) :
    u.length ≤ (readPiece c cs).2.length := by
  have htails := mem_tails_of_lexical h
  have hcut := cut_readPiece c cs
  generalize readPiece c cs = piece at hcut
  cases hcut with
  | blank hstart | comment hstart | lineBreak hstart | letter hstart =>
    rw [hstart] at htails
    exact length_le_takeWhile hu (mem_star_iff.mp htails)
  | symbol hstart =>
    rw [hstart] at htails
    obtain rfl : u = [] := htails
    exact Nat.le_refl 0
  | digit hstart =>
    rw [hstart] at htails
    obtain ⟨ds, hds, tail, htail, rfl⟩ := Language.mem_mul.mp htails
    exact length_le_number (mem_star_iff.mp hds) htail hu
  | minus hstart =>
    rw [hstart] at htails
    obtain ⟨ds, hds, tail, htail, rfl⟩ := Language.mem_mul.mp htails
    exact length_le_number (mem_run_iff.mp hds).2 htail hu
  | loneMinus hstart hdigits => exact absurd h (not_lexical_of_loneMinus hstart hdigits hu)
  | other hstart => exact absurd h (not_lexical_of_other hstart)

end Source

end TensorIR
