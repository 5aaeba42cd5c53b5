import TensorIR.Source.Lexer

/-!
# Tokens and the text they stand for

Every token stands for a stretch of the source, and the stretches come one after the other
(`ordered_lexemes`). The stretch of an identifier is its name, letter by letter (`text?_ident`), so
an identifier and the place where it stands say the same.
-/

set_option autoImplicit false

namespace TensorIR.Source

/-- The text that a span covers, if it starts and ends between two characters. -/
def text? (source : List Char) (span : Span) : Option (List Char) :=
  match before? source span.start, before? source span.stop with
  | some before, some upTo => some (upTo.drop before.length)
  | _, _ => none

theorem text?_append (before text after : List Char) :
    text? (before ++ text ++ after) ⟨byteLength before, byteLength before + byteLength text⟩ =
      some text := by
  have hstart : before? (before ++ text ++ after) (byteLength before) = some before := by
    rw [List.append_assoc]
    exact before?_append ..
  have hstop : before? (before ++ text ++ after) (byteLength before + byteLength text) =
      some (before ++ text) := by
    rw [← byteLength_append]
    exact before?_append ..
  simp only [text?, hstart, hstop, List.drop_left]

theorem byteLength_pos {cs : List Char} (h : cs ≠ []) : 0 < byteLength cs := by
  cases cs with
  | nil => exact absurd rfl h
  | cons c cs =>
    rw [byteLength_cons]
    exact Nat.add_pos_left c.utf8Size_pos _

/-! ## Pieces -/

theorem ne_nil_of_mem_pieces {source : List Char} {p : Piece} (hp : p ∈ pieces source) :
    p.text ≠ [] := by
  fun_induction pieces source with
  | case1 => cases hp
  | case2 c cs reading more h ih =>
    rcases List.mem_cons.mp hp with rfl | hp
    · exact List.cons_ne_nil c more
    · exact ih hp

theorem symbol?_ne_ident (c : Char) (name : String) : symbol? c ≠ some (.ident name) := by
  unfold symbol?
  repeat' split
  all_goals simp

theorem readNumber_ne_ident (text tail : List Char) (name : String) :
    readNumber text tail ≠ .token (.ident name) := by
  unfold readNumber
  split <;> split <;> simp

/-- Of all pieces only runs of letters are identifiers. -/
theorem readPiece_ident {c : Char} {cs : List Char} {name : String}
    (h : (readPiece c cs).1 = .token (.ident name)) : name.toList = c :: (readPiece c cs).2 := by
  unfold readPiece at h ⊢
  split at h
  next => cases h
  next hspace =>
    split at h
    next => cases h
    next hcomment =>
      split at h
      next => cases h
      next hnewline =>
        split at h
        next hident =>
          rw [if_neg hspace, if_neg hcomment, if_neg hnewline, if_pos hident]
          obtain rfl : String.ofList (c :: cs.takeWhile isIdentPart) = name := by simpa using h
          exact String.toList_ofList
        next =>
          split at h
          next t hsymbol =>
            obtain rfl : t = .ident name := by simpa using h
            exact absurd hsymbol (symbol?_ne_ident c name)
          next =>
            split at h
            next => exact absurd h (readNumber_ne_ident _ _ name)
            next => cases h

theorem text_of_ident {source : List Char} {p : Piece} {name : String} (hp : p ∈ pieces source)
    (hname : p.reading = .token (.ident name)) : p.text = name.toList := by
  fun_induction pieces source with
  | case1 => cases hp
  | case2 c cs reading more h ih =>
    rcases List.mem_cons.mp hp with rfl | hp
    · have hident : (readPiece c cs).1 = .token (.ident name) := by rw [h]; exact hname
      rw [readPiece_ident hident, h]
    · exact ih hp

/-! ## Tokens -/

/-- The token is one of the pieces, and stands where the pieces before it end. -/
def Located (start : Nat) (ps : List Piece) (l : Lexeme) : Prop :=
  ∃ before p after, ps = before ++ p :: after ∧ p.reading = .token l.token ∧
    l.span.start = start + byteLength (before.flatMap Piece.text) ∧
    l.span.stop = l.span.start + byteLength p.text

theorem Located.cons {start : Nat} {p : Piece} {ps : List Piece} {l : Lexeme}
    (h : Located (start + byteLength p.text) ps l) : Located start (p :: ps) l := by
  obtain ⟨before, q, after, rfl, hreading, hstart, hstop⟩ := h
  refine ⟨p :: before, q, after, rfl, hreading, ?_, hstop⟩
  rw [hstart, List.flatMap_cons, byteLength_append, Nat.add_assoc]

theorem located_of_mem {start : Nat} {ps : List Piece} {l : Lexeme}
    (hl : l ∈ (locate start ps).lexemes) : Located start ps l := by
  induction ps generalizing start with
  | nil => cases hl
  | cons p ps ih =>
    rw [locate] at hl
    split at hl
    next => exact (ih hl).cons
    next t hreading =>
      rcases List.mem_cons.mp hl with rfl | hl
      · exact ⟨[], p, ps, rfl, hreading, rfl, rfl⟩
      · exact (ih hl).cons
    next => exact (ih hl).cons

theorem ordered_locate {start : Nat} {ps : List Piece} (hps : ∀ p ∈ ps, p.text ≠ []) :
    (locate start ps).lexemes.Pairwise fun l l' => l.span.start < l'.span.start := by
  induction ps generalizing start with
  | nil => exact .nil
  | cons p ps ih =>
    obtain ⟨hp, hps⟩ := List.forall_mem_cons.mp hps
    rw [locate]
    split
    next => exact ih hps
    next t hreading =>
      refine List.Pairwise.cons (fun l hl => ?_) (ih hps)
      obtain ⟨before, q, after, -, -, hstart, -⟩ := located_of_mem hl
      have hpos := byteLength_pos hp
      rw [hstart]
      dsimp only
      omega
    next => exact ih hps

/-- Tokens come in the order in which they stand in the source. -/
theorem ordered_lexemes (source : List Char) :
    (scan source).lexemes.Pairwise fun l l' => l.span.start < l'.span.start :=
  ordered_locate fun _ => ne_nil_of_mem_pieces

/-- The text of an identifier is its name, and that is not empty. -/
theorem text?_ident {source : List Char} {l : Lexeme} {name : String}
    (hl : l ∈ (scan source).lexemes) (hname : l.token = .ident name) :
    text? source l.span = some name.toList ∧ name.toList ≠ [] := by
  obtain ⟨before, p, after, hps, hreading, hstart, hstop⟩ := located_of_mem hl
  have hp : p ∈ pieces source := by
    rw [hps]
    exact List.mem_append_right _ List.mem_cons_self
  have htext : p.text = name.toList := text_of_ident hp (by rw [hreading, hname])
  have hsource : source =
      before.flatMap Piece.text ++ p.text ++ after.flatMap Piece.text := by
    rw [← text_pieces source, hps, List.flatMap_append, List.flatMap_cons, List.append_assoc]
  have hspan : l.span = ⟨byteLength (before.flatMap Piece.text),
      byteLength (before.flatMap Piece.text) + byteLength p.text⟩ := by
    rw [Nat.zero_add] at hstart
    rw [← hstart, ← hstop]
  refine ⟨?_, htext ▸ ne_nil_of_mem_pieces hp⟩
  rw [hspan, hsource, text?_append, htext]

end TensorIR.Source
