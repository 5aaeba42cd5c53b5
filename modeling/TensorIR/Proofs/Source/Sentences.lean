import TensorIR.Proofs.Source.Derivation

/-!
# Which texts are programs

Whether a token may come depends on the position of the reader alone, and so does the position after
it. So the reader's states, with all that they hold, can be forgotten: what remains is an automaton
on the sixteen positions of the grammar (`Position.next`), and the sentences of the grammar are the
words it accepts (`sentence_iff`). In particular a text is a program or not whatever the places of
its tokens are, and if it is one, it is read as the tree that the grammar gives it.
-/

set_option autoImplicit false

namespace TensorIR

open Grammar

/-! ## The automaton -/

namespace Position

/-- The position after a token, if the token may come. -/
def next : Position → Token → Option Position
  | .statement, .newline => some .statement
  | .statement, .ident _ => some .afterName
  | .afterName, .equals => some .opName
  | .afterName, .leftBracket => some .attrName
  | .afterName, .leftParen => some .firstOperand
  | .opName, .ident _ => some .afterOp
  | .afterOp, .leftBracket => some .attrName
  | .afterOp, .leftParen => some .firstOperand
  | .attrName, .ident _ => some .attrEquals
  | .attrEquals, .equals => some .attrValue
  | .attrValue, .int _ => some .afterAttr
  | .attrValue, .float _ => some .afterAttr
  | .attrValue, .question => some .afterAttr
  | .attrValue, .ident _ => some .afterAttr
  | .attrValue, .leftBracket => some .firstDim
  | .afterAttr, .comma => some .attrName
  | .afterAttr, .rightBracket => some .operandList
  | .operandList, .leftParen => some .firstOperand
  | .firstDim, .int _ => some .afterDim
  | .firstDim, .question => some .afterDim
  | .firstDim, .rightBracket => some .afterAttr
  | .afterDim, .comma => some .nextDim
  | .afterDim, .rightBracket => some .afterAttr
  | .nextDim, .int _ => some .afterDim
  | .nextDim, .question => some .afterDim
  | .firstOperand, .ident _ => some .afterOperand
  | .firstOperand, .rightParen => some .afterStatement
  | .afterOperand, .comma => some .nextOperand
  | .afterOperand, .rightParen => some .afterStatement
  | .nextOperand, .ident _ => some .afterOperand
  | .afterStatement, .newline => some .statement
  | _, _ => none

/-- A program may end here. -/
def mayEnd : Position → Bool
  | .statement | .afterStatement => true
  | _ => false

/-- The position after some tokens, if they may come. -/
def run (p : Position) (ts : List Token) : Option Position := ts.foldlM next p

variable {p : Position} {t : Token} {ts us : List Token}

@[simp] theorem run_nil : p.run [] = some p := rfl

@[simp] theorem run_cons : p.run (t :: ts) = (p.next t).bind fun q => q.run ts := rfl

theorem run_append : p.run (ts ++ us) = (p.run ts).bind fun q => q.run us :=
  List.foldlM_append

end Position

namespace Pending

/-- One case for each position and token. -/
theorem position_step (p : Pending) (l : Lexeme) :
    (p.step l).map position = p.position.next l.token := by
  obtain ⟨t, span⟩ := l
  cases p <;> cases t <;> rfl

theorem mayEnd_position (p : Pending) : p.position.mayEnd = p.mayEnd := by
  cases p <;> rfl

end Pending

/-- What is accepted, as far as the positions tell. -/
theorem exists_accepts_iff {p : Pending} {ls : List Lexeme} : (∃ ss, Accepts p ls ss) ↔
    ∃ q, p.position.run (ls.map Lexeme.token) = some q ∧ q.mayEnd = true := by
  induction ls generalizing p with
  | nil => simp [accepts_nil, Pending.mayEnd_position]
  | cons l ls ih =>
    rw [List.map_cons, Position.run_cons, ← Pending.position_step]
    cases hstep : p.step l with
    | none => simp [accepts_cons, hstep]
    | some next =>
      rw [Option.map_some, Option.bind_some, ← ih]
      constructor
      · rintro ⟨_, h⟩
        obtain ⟨_, ss, hnext, -, h⟩ := accepts_cons.mp h
        obtain rfl := Option.some.inj (hstep.symm.trans hnext)
        exact ⟨ss, h⟩
      · rintro ⟨ss, h⟩
        exact ⟨_, accepts_cons.mpr ⟨next, ss, hstep, rfl, h⟩⟩

/-! ## Sentences -/

/-- The tokens form a program, wherever they stand. -/
def Sentence (ts : List Token) : Prop :=
  ∃ ls ss, ls.map Lexeme.token = ts ∧ IsProgram ls ss

variable {ts : List Token} {ls : List Lexeme}

theorem sentence_iff :
    Sentence ts ↔ ∃ q, Position.statement.run ts = some q ∧ q.mayEnd = true := by
  constructor
  · rintro ⟨ls, ss, rfl, h⟩
    exact exists_accepts_iff.mp ⟨ss, accepts_program.mpr h⟩
  · intro h
    have htokens : (ts.map fun t => (⟨t, ⟨0, 0⟩⟩ : Lexeme)).map Lexeme.token = ts := by
      rw [List.map_map]
      exact List.map_id ts
    obtain ⟨ss, hss⟩ := exists_accepts_iff (p := .blank).mpr (htokens.symm ▸ h)
    exact ⟨_, ss, htokens, accepts_program.mp hss⟩

/-- The places of tokens do not matter to whether they form a program. -/
theorem sentence_tokens_iff : Sentence (ls.map Lexeme.token) ↔ ∃ ss, IsProgram ls ss := by
  rw [sentence_iff]
  simp only [← accepts_program]
  exact (exists_accepts_iff (p := .blank)).symm

/-! ## Reading a text -/

theorem program_parse_eq_some_iff (source : List Char) (program : Program) :
    (parse source).program = some program ↔
      Accepts .blank (Source.scan source).lexemes program.statements ∧
        program.span = coverage (Source.scan source).lexemes (Source.byteLength source) := by
  obtain ⟨statements, span⟩ := program
  unfold Accepts
  simp only [parse, readStatements]
  cases readFrom [] .blank (Source.scan source).lexemes with
  | ok out => simp [eq_comm]
  | error stop => simp

/-- Reading a text is exact. It finds a program if and only if the tokens form one, and then the
program is the only tree that the grammar gives to the tokens. The names in it are the texts in
their places. -/
theorem parse_exact (source : List Char) :
    ((∃ program, (parse source).program = some program) ↔
      Sentence ((Source.scan source).lexemes.map Lexeme.token)) ∧
    (∀ program, (parse source).program = some program ↔
      IsProgram (Source.scan source).lexemes program.statements ∧
        program.span = coverage (Source.scan source).lexemes (Source.byteLength source)) ∧
    (∀ ss ss', IsProgram (Source.scan source).lexemes ss →
      IsProgram (Source.scan source).lexemes ss' → ss = ss') ∧
    ∀ l ∈ (Source.scan source).lexemes, ∀ name, l.token = .ident name →
      Source.text? source l.span = some name.toList := by
  have hprogram : ∀ program, (parse source).program = some program ↔
      IsProgram (Source.scan source).lexemes program.statements ∧
        program.span = coverage (Source.scan source).lexemes (Source.byteLength source) := by
    intro program
    rw [program_parse_eq_some_iff, accepts_program]
  refine ⟨?_, hprogram, ?_, ?_⟩
  · rw [sentence_tokens_iff]
    constructor
    · rintro ⟨program, h⟩
      exact ⟨program.statements, ((hprogram program).mp h).1⟩
    · rintro ⟨ss, h⟩
      exact ⟨⟨ss, _⟩, (hprogram _).mpr ⟨h, rfl⟩⟩
  · intro ss ss' h h'
    exact (accepts_program.mpr h).unique (accepts_program.mpr h')
  · intro l hl name hname
    exact (Source.text?_ident hl hname).1

end TensorIR
