import TensorIR.Source.Token

/-!
# Cutting a source into tokens

A source is cut into pieces from the left (`pieces`): blanks and comments, which mean nothing, the
tokens, and stretches that are no token. Each piece is as long as its kind allows, so that a run of
letters is one identifier and `1.5` is one number; where a number could go on but does not, as in
`1.x` or `1e+`, it ends before the part that misleads.

A character that starts nothing is a bad piece by itself, and a whole number that does not fit into
a signed word is one bad piece with all its digits. Pieces lose nothing: put together they are the
source again (`text_pieces`).
-/

set_option autoImplicit false

namespace TensorIR.Source

/-! ## Classes of characters -/

/-- Blanks within a line. -/
def isSpace (c : Char) : Bool := c = ' ' || c = '\t' || c = '\r'

/-- Characters that an identifier starts with: ASCII letters and the underscore. -/
def isIdentStart (c : Char) : Bool := c.isAlpha || c = '_'

/-- Characters that an identifier goes on with: also digits and points. -/
def isIdentPart (c : Char) : Bool := isIdentStart c || c.isDigit || c = '.'

/-- The token that is a single character. -/
def symbol? (c : Char) : Option Token :=
  if c = '(' then some .leftParen
  else if c = ')' then some .rightParen
  else if c = '[' then some .leftBracket
  else if c = ']' then some .rightBracket
  else if c = ',' then some .comma
  else if c = '=' then some .equals
  else if c = '?' then some .question
  else none

/-! ## Numbers -/

/-- The digits at the front of a text. -/
def digitsOf (cs : List Char) : List Char := cs.takeWhile Char.isDigit

/-- The exponent at the front of a text: a marker, a sign or none, and digits. -/
def exponentOf? : List Char → Option (List Char)
  | marker :: rest =>
    if marker = 'e' ∨ marker = 'E' then
      let signed := match rest with
        | sign :: rest => if sign = '+' ∨ sign = '-' then ([sign], rest) else ([], sign :: rest)
        | [] => ([], [])
      let digits := digitsOf signed.2
      if digits.isEmpty then none else some (marker :: signed.1 ++ digits)
    else none
  | [] => none

/-- The fraction at the front of a text: a point and digits. -/
def fractionOf? : List Char → Option (List Char)
  | '.' :: rest => if (digitsOf rest).isEmpty then none else some ('.' :: digitsOf rest)
  | _ => none

/-- What follows the whole part of a number and belongs to it: a fraction, an exponent, or a
fraction and an exponent. Nothing follows the whole part of an integer. -/
def numberTail (cs : List Char) : List Char :=
  match fractionOf? cs with
  | some fraction => fraction ++ (exponentOf? (cs.drop fraction.length)).getD []
  | none => (exponentOf? cs).getD []

/-- The whole part of a number that starts with a given character, without that character. -/
def wholeAfter? (c : Char) (cs : List Char) : Option (List Char) :=
  if c.isDigit then some (digitsOf cs)
  else if c = '-' ∧ !(digitsOf cs).isEmpty then some (digitsOf cs)
  else none

/-! ## Pieces -/

/-- What a stretch of the source is. -/
inductive Reading where
  /-- Blanks or a comment. -/
  | skipped
  | token (t : Token)
  /-- Neither. -/
  | bad
deriving DecidableEq, Repr

/-- A stretch of the source. -/
structure Piece where
  reading : Reading
  text : List Char
deriving DecidableEq, Repr

/-- What a number is: a float if anything follows its whole part, and otherwise an integer, which
has to fit into a signed word. -/
def readNumber (text tail : List Char) : Reading :=
  if tail.isEmpty then
    match Numeral.readSigned? text with
    | some n => .token (.int n)
    | none => .bad
  else
    match Binary64.read? text with
    | some v => .token (.float v)
    | none => .bad

/-- The piece that starts with a character: what it is, and the characters that follow the first
one in it. -/
def readPiece (c : Char) (cs : List Char) : Reading × List Char :=
  if isSpace c then (.skipped, cs.takeWhile isSpace)
  else if c = '#' then (.skipped, cs.takeWhile (· ≠ '\n'))
  else if c = '\n' then (.token .newline, cs.takeWhile (· = '\n'))
  else if isIdentStart c then
    let more := cs.takeWhile isIdentPart
    (.token (.ident (String.ofList (c :: more))), more)
  else
    match symbol? c with
    | some t => (.token t, [])
    | none =>
      match wholeAfter? c cs with
      | some whole =>
        let tail := numberTail (cs.drop whole.length)
        (readNumber (c :: (whole ++ tail)) tail, whole ++ tail)
      | none => (.bad, [])

/-- The pieces of a source. -/
def pieces : List Char → List Piece
  | [] => []
  | c :: cs =>
    let (reading, more) := readPiece c cs
    ⟨reading, c :: more⟩ :: pieces (cs.drop more.length)
termination_by cs => cs.length
decreasing_by simp only [List.length_drop, List.length_cons]; omega

/-! ## Tokens and bad pieces, with their places -/

/-- A stretch of the source that is no token. -/
structure BadText where
  text : List Char
  span : Span
deriving DecidableEq, Repr

/-- The tokens of a source and what is wrong with it, each in order. -/
structure Scan where
  lexemes : List Lexeme
  bad : List BadText
deriving DecidableEq, Repr

/-- Sort pieces into tokens and bad stretches, the first piece being at a byte offset. -/
def locate : Nat → List Piece → Scan
  | _, [] => ⟨[], []⟩
  | start, p :: ps =>
    let span : Span := ⟨start, start + byteLength p.text⟩
    let rest := locate span.stop ps
    match p.reading with
    | .skipped => rest
    | .token t => { rest with lexemes := ⟨t, span⟩ :: rest.lexemes }
    | .bad => { rest with bad := ⟨p.text, span⟩ :: rest.bad }

/-- The tokens of a source and what is wrong with it. -/
def scan (source : List Char) : Scan := locate 0 (pieces source)

/-! ## Nothing is lost -/

theorem takeWhile_isPrefix {p : Char → Bool} (cs : List Char) : cs.takeWhile p <+: cs :=
  List.takeWhile_prefix p

theorem digitsOf_isPrefix (cs : List Char) : digitsOf cs <+: cs := takeWhile_isPrefix cs

theorem exponentOf?_isPrefix {cs e : List Char} (h : exponentOf? cs = some e) : e <+: cs := by
  cases cs with
  | nil => simp [exponentOf?] at h
  | cons marker rest =>
    simp only [exponentOf?] at h
    split at h
    next =>
      cases rest with
      | nil => simp [digitsOf] at h
      | cons sign rest =>
        simp only at h
        split at h
        next =>
          split at h
          · simp at h
          · obtain rfl := Option.some.inj h
            simpa [List.prefix_cons_iff] using digitsOf_isPrefix rest
        next =>
          split at h
          · simp at h
          · obtain rfl := Option.some.inj h
            exact (List.prefix_cons_inj marker).mpr (digitsOf_isPrefix (sign :: rest))
    next => simp at h

theorem fractionOf?_isPrefix {cs f : List Char} (h : fractionOf? cs = some f) : f <+: cs := by
  unfold fractionOf? at h
  split at h
  next rest =>
    split at h
    · simp at h
    · obtain rfl := Option.some.inj h
      exact (List.prefix_cons_inj '.').mpr (digitsOf_isPrefix rest)
  next => simp at h

/-- A part at the front followed by a part at the front of the remainder is at the front. -/
theorem append_isPrefix {as bs cs : List Char} (ha : as <+: cs) (hb : bs <+: cs.drop as.length) :
    as ++ bs <+: cs := by
  obtain ⟨rest, rfl⟩ := ha
  rw [List.drop_left] at hb
  exact (List.prefix_append_right_inj as).mpr hb

theorem numberTail_isPrefix (cs : List Char) : numberTail cs <+: cs := by
  unfold numberTail
  split
  next fraction h =>
    refine append_isPrefix (fractionOf?_isPrefix h) ?_
    cases he : exponentOf? (cs.drop fraction.length) with
    | none => exact List.nil_prefix
    | some e => exact exponentOf?_isPrefix he
  next =>
    cases he : exponentOf? cs with
    | none => exact List.nil_prefix
    | some e => exact exponentOf?_isPrefix he

theorem wholeAfter?_isPrefix {c : Char} {cs whole : List Char}
    (h : wholeAfter? c cs = some whole) : whole <+: cs := by
  unfold wholeAfter? at h
  split at h
  · obtain rfl := Option.some.inj h
    exact takeWhile_isPrefix cs
  · split at h
    · obtain rfl := Option.some.inj h
      exact takeWhile_isPrefix cs
    · simp at h

/-- What a piece takes beyond its first character is at the front of what follows. -/
theorem readPiece_isPrefix (c : Char) (cs : List Char) : (readPiece c cs).2 <+: cs := by
  unfold readPiece
  split
  · exact takeWhile_isPrefix cs
  split
  · exact takeWhile_isPrefix cs
  split
  · exact takeWhile_isPrefix cs
  split
  · exact takeWhile_isPrefix cs
  split
  · exact List.nil_prefix
  split
  next whole h => exact append_isPrefix (wholeAfter?_isPrefix h) (numberTail_isPrefix _)
  next => exact List.nil_prefix

/-- Put together, the pieces are the source. -/
theorem text_pieces (source : List Char) : (pieces source).flatMap Piece.text = source := by
  fun_induction pieces source with
  | case1 => rfl
  | case2 c cs reading more h ih =>
    rw [List.flatMap_cons, ih, List.cons_append, List.cons.injEq]
    refine ⟨rfl, ?_⟩
    have hpre : more <+: cs := by
      have := readPiece_isPrefix c cs
      rw [h] at this
      exact this
    obtain ⟨rest, rfl⟩ := hpre
    rw [List.drop_left]

end TensorIR.Source
