import TensorIR.Proofs.Source.Sentences

/-!
# Syntax errors point at the first token that cannot come

From every position a program can be completed (`Position.completion`), so the reader has not gone
wrong as long as it goes on at all: the tokens it has passed start some program (`viable_iff`). It
stops at the first token after which that is no longer so, or at the end of a text that only starts
a program. What the message says might have come instead is exactly what might: the list of a position
is compared with what the automaton does there.
-/

set_option autoImplicit false

namespace TensorIR

open Grammar

/-- The tokens start a program, or are one. -/
def Viable (ts : List Token) : Prop := ∃ rest, Sentence (ts ++ rest)

namespace Token

/-- The kind of a token, as far as a message tells kinds apart. -/
def kind : Token → Expectation
  | .leftParen => .leftParen
  | .rightParen => .rightParen
  | .leftBracket => .leftBracket
  | .rightBracket => .rightBracket
  | .comma => .comma
  | .equals => .equals
  | .question => .literal
  | .float _ => .literal
  | .int _ => .literal
  | .ident _ => .ident
  | .newline => .newline

end Token

/-! ## Positions can be completed -/

namespace Position

variable {p : Position} {t : Token}

/-- Some tokens that complete a program. -/
def completion : Position → List Token
  | .statement => []
  | .afterName => [.leftParen, .rightParen]
  | .opName => [.ident "op", .leftParen, .rightParen]
  | .afterOp => [.leftParen, .rightParen]
  | .attrName => [.ident "attr", .equals, .question, .rightBracket, .leftParen, .rightParen]
  | .attrEquals => [.equals, .question, .rightBracket, .leftParen, .rightParen]
  | .attrValue => [.question, .rightBracket, .leftParen, .rightParen]
  | .afterAttr => [.rightBracket, .leftParen, .rightParen]
  | .operandList => [.leftParen, .rightParen]
  | .firstDim => [.rightBracket, .rightBracket, .leftParen, .rightParen]
  | .afterDim => [.rightBracket, .rightBracket, .leftParen, .rightParen]
  | .nextDim => [.question, .rightBracket, .rightBracket, .leftParen, .rightParen]
  | .firstOperand => [.rightParen]
  | .afterOperand => [.rightParen]
  | .nextOperand => [.ident "operand", .rightParen]
  | .afterStatement => []

theorem run_completion (p : Position) : ∃ q, p.run p.completion = some q ∧ q.mayEnd = true := by
  cases p <;> exact ⟨_, rfl, rfl⟩

theorem completion_ne_nil (h : p.mayEnd = false) : p.completion ≠ [] := by
  revert h
  cases p <;> decide

/-! ## The lists of what may come -/

theorem nodup_expected (p : Position) : p.expected.Nodup := by
  cases p <;> decide

/-- Kinds other than literals are listed where they may come. -/
theorem kind_mem_expected_iff (hkind : t.kind ≠ .literal) :
    t.kind ∈ p.expected ↔ (p.next t).isSome = true := by
  cases p <;> cases t <;> first | exact absurd rfl hkind | simp [Token.kind, expected, next]

/-- Literals are listed where one of them may come. -/
theorem literal_mem_expected_iff :
    .literal ∈ p.expected ↔ ∃ t : Token, t.kind = .literal ∧ (p.next t).isSome = true := by
  constructor
  · intro h
    refine ⟨.question, rfl, ?_⟩
    revert h
    cases p <;> decide
  · rintro ⟨t, hkind, ht⟩
    revert hkind ht
    cases p <;> cases t <;> simp [Token.kind, expected, next]

theorem endOfInput_mem_expected_iff : .endOfInput ∈ p.expected ↔ p.mayEnd = true := by
  cases p <;> decide

end Position

/-! ## Viable tokens -/

variable {ts : List Token} {t : Token} {p : Position}

theorem viable_iff : Viable ts ↔ ∃ p, Position.statement.run ts = some p := by
  constructor
  · rintro ⟨rest, h⟩
    obtain ⟨q, hq, -⟩ := sentence_iff.mp h
    rw [Position.run_append] at hq
    obtain ⟨p, hp, -⟩ := Option.bind_eq_some_iff.mp hq
    exact ⟨p, hp⟩
  · rintro ⟨p, hp⟩
    obtain ⟨q, hq, hend⟩ := p.run_completion
    refine ⟨p.completion, sentence_iff.mpr ⟨q, ?_, hend⟩⟩
    rw [Position.run_append, hp, Option.bind_some, hq]

/-- One more token is viable if the automaton takes it. -/
theorem viable_append_iff (hp : Position.statement.run ts = some p) :
    Viable (ts ++ [t]) ↔ (p.next t).isSome = true := by
  rw [viable_iff, Position.run_append, hp, Option.isSome_iff_exists]
  simp

/-- The list names what may follow some tokens, and nothing else. -/
structure Lists (expected : List Expectation) (ts : List Token) : Prop where
  nodup : expected.Nodup
  kind : ∀ t : Token, t.kind ≠ .literal → (t.kind ∈ expected ↔ Viable (ts ++ [t]))
  literal : .literal ∈ expected ↔ ∃ t : Token, t.kind = .literal ∧ Viable (ts ++ [t])
  endOfInput : .endOfInput ∈ expected ↔ Sentence ts

theorem lists_expected (hp : Position.statement.run ts = some p) : Lists p.expected ts where
  nodup := p.nodup_expected
  kind t hkind := by
    rw [viable_append_iff hp]
    exact Position.kind_mem_expected_iff hkind
  literal := by
    simp only [viable_append_iff hp]
    exact Position.literal_mem_expected_iff
  endOfInput := by
    rw [sentence_iff, hp, Position.endOfInput_mem_expected_iff]
    simp

/-! ## Where reading stops -/

/-- The reader stops at a token that cannot come after those before it, or at an end that cannot
come. By induction on the tokens: as long as they may come, the position is the automaton's. -/
theorem cut_readFrom {done : List Statement} {p : Pending} {ls : List Lexeme} {stop : Stop}
    (h : readFrom done p ls = .error stop) :
    (∃ before l after, ls = before ++ l :: after ∧ stop.found = some l ∧
      p.position.run (before.map Lexeme.token) = some stop.position ∧
      stop.position.next l.token = none) ∨
    (stop.found = none ∧ p.position.run (ls.map Lexeme.token) = some stop.position ∧
      stop.position.mayEnd = false) := by
  induction ls generalizing done p with
  | nil =>
    rw [readFrom] at h
    split at h
    · cases h
    next hend =>
      obtain rfl := Except.error.inj h
      refine .inr ⟨rfl, rfl, ?_⟩
      rw [Pending.mayEnd_position]
      exact Bool.eq_false_iff.mpr hend
  | cons l ls ih =>
    rw [readFrom] at h
    have hposition := p.position_step l
    split at h
    next next hstep =>
      have hrun : ∀ ts, p.position.run (l.token :: ts) = next.position.run ts := by
        intro ts
        rw [Position.run_cons, ← hposition, hstep]
        rfl
      rcases ih h with ⟨before, l', after, rfl, hfound, hbefore, hnext⟩ | ⟨hfound, hls, hend⟩
      · exact .inl ⟨l :: before, l', after, rfl, hfound, (hrun _).trans hbefore, hnext⟩
      · exact .inr ⟨hfound, (hrun _).trans hls, hend⟩
    next hstep =>
      obtain rfl := Except.error.inj h
      refine .inl ⟨[], l, ls, rfl, rfl, rfl, ?_⟩
      rw [← hposition, hstep]
      rfl

/-- What was found where reading went wrong, and where it is: a token after those before it, or the
end of the source after all tokens. -/
inductive Found (ls : List Lexeme) (length : Nat) : List Lexeme → Option Token → Span → Prop
  | token {before after : List Lexeme} {l : Lexeme} (h : ls = before ++ l :: after) :
    Found ls length before (some l.token) l.span
  | endOfInput : Found ls length ls none ⟨length, length⟩

/-- The tokens before the place are fine, and with what was found there they are not: a token there
is the first after which no program can come about, and at the end some of a program is missing. -/
structure FirstImpossible (before : List Token) (found : Option Token) : Prop where
  viable : Viable before
  token : ∀ t, found = some t → ¬ Viable (before ++ [t])
  endOfInput : found = none → ¬ Sentence before ∧ ∃ rest, rest ≠ [] ∧ Sentence (before ++ rest)

theorem firstImpossible_token (hp : Position.statement.run ts = some p) (ht : p.next t = none) :
    FirstImpossible ts (some t) where
  viable := viable_iff.mpr ⟨p, hp⟩
  token := by
    rintro _ ⟨⟩
    rw [viable_append_iff hp, ht]
    exact Bool.false_ne_true
  endOfInput := by
    intro h
    cases h

theorem firstImpossible_end (hp : Position.statement.run ts = some p) (hend : p.mayEnd = false) :
    FirstImpossible ts none where
  viable := viable_iff.mpr ⟨p, hp⟩
  token := by
    intro t h
    cases h
  endOfInput := by
    intro _
    obtain ⟨q, hq, hqend⟩ := p.run_completion
    refine ⟨?_, p.completion, Position.completion_ne_nil hend, sentence_iff.mpr ⟨q, ?_, hqend⟩⟩
    · rw [← (lists_expected hp).endOfInput, Position.endOfInput_mem_expected_iff, hend]
      exact Bool.false_ne_true
    · rw [Position.run_append, hp, Option.bind_some, hq]

theorem exists_stop {source : List Char} (h : (parse source).program = none) :
    ∃ stop, readStatements (Source.scan source).lexemes = .error stop ∧
      (parse source).errors = (Source.scan source).bad.map (fun b => .badText b.text b.span) ++
        [.unexpected (stop.found.map Lexeme.token) stop.position
          (match stop.found with
            | some l => l.span
            | none => ⟨Source.byteLength source, Source.byteLength source⟩)] := by
  simp only [parse] at h ⊢
  split at h
  · cases h
  next stop hread => exact ⟨stop, hread, rfl⟩

/-- How a message names what was found. -/
def shown : Option Token → String
  | some t => "'" ++ t.render ++ "'"
  | none => "end of input"

theorem message_unexpected (found : Option Token) (position : Position) (span : Span) :
    (SourceError.unexpected found position span).message = "found " ++ shown found ++
      " expected " ++ alternatives (position.expected.map Expectation.render) := by
  cases found <;> rfl

/-- Syntax errors are exact. If a text is no program, then there is one error after those about
stretches that are no token. It points at the first token that cannot come, or at the end of the
text if all tokens could, and the list in its message is of what may come there. -/
theorem syntax_error_exact (source : List Char) (h : (parse source).program = none) :
    ∃ before found position span,
      (parse source).errors = (Source.scan source).bad.map (fun b => .badText b.text b.span) ++
        [.unexpected found position span] ∧
      (SourceError.unexpected found position span).message =
        "found " ++ shown found ++ " expected " ++
          alternatives (position.expected.map Expectation.render) ∧
      Found (Source.scan source).lexemes (Source.byteLength source) before found span ∧
      FirstImpossible (before.map Lexeme.token) found ∧
      Lists position.expected (before.map Lexeme.token) := by
  obtain ⟨⟨found, position⟩, hread, herrors⟩ := exists_stop h
  rcases cut_readFrom hread with ⟨before, l, after, hls, rfl, hbefore, hnext⟩ | ⟨rfl, hls, hend⟩
  · exact ⟨before, some l.token, position, l.span, herrors, message_unexpected .., .token hls,
      firstImpossible_token hbefore hnext, lists_expected hbefore⟩
  · exact ⟨_, none, position, _, herrors, message_unexpected .., .endOfInput,
      firstImpossible_end hls hend, lists_expected hls⟩

/-- A number is no operand: `y = Relu(x, ` starts programs, and a name goes on in each of them. -/
theorem syntax_error_exact_operand :
    (parse "y = Relu(x, 3)".toList).program = none ∧
    (parse "y = Relu(x, 3)".toList).errors =
      [.unexpected (some (.int 3)) .nextOperand ⟨12, 13⟩] ∧
    ∃ before, Viable before ∧ ¬ Viable (before ++ [.int 3]) ∧ Lists [.ident] before := by
  have hnone : (parse "y = Relu(x, 3)".toList).program = none := by
    decide +kernel
  have herror : (parse "y = Relu(x, 3)".toList).errors =
      [.unexpected (some (.int 3)) .nextOperand ⟨12, 13⟩] := by
    decide +kernel
  have hbad : (Source.scan "y = Relu(x, 3)".toList).bad = [] := by
    decide +kernel
  obtain ⟨before, found, position, span, herrors, -, -, hfirst, hlist⟩ :=
    syntax_error_exact _ hnone
  rw [herror, hbad] at herrors
  obtain ⟨rfl, rfl, rfl⟩ :
      some (.int 3) = found ∧ Position.nextOperand = position ∧ (⟨12, 13⟩ : Span) = span := by
    simpa using herrors
  exact ⟨hnone, herror, _, hfirst.viable, hfirst.token _ rfl, hlist⟩

end TensorIR
