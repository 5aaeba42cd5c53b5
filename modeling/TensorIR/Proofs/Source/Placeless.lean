import TensorIR.Proofs.Model.Placement
import TensorIR.Proofs.Source.Sentences

/-!
# Reading without places

What is read depends on the places of the tokens only as far as places go: forgetting places first
and reading then is the same as reading first and forgetting places then, token by token
(`Pending.step_unplaced`). Nor does it depend on how many line breaks there are in a row, since at
the start of a line a further one changes nothing (`accepts_squeeze`). So up to places a program is
determined by its tokens with each run of line breaks counted once (`program_unplaced_congr`).
-/

set_option autoImplicit false

namespace TensorIR

/-! ## States without places -/

def Lexeme.unplaced (l : Lexeme) : Lexeme := ⟨l.token, .nowhere⟩

def Heading.unplaced (h : Heading) : Heading := ⟨h.result.map Ident.unplaced, h.op.unplaced⟩

/-- The program as if it stood nowhere in particular. -/
def Program.unplaced (p : Program) : Program := ⟨p.statements.map Statement.unplaced, .nowhere⟩

theorem Heading.start_unplaced (h : Heading) : h.unplaced.start = 0 := by
  obtain ⟨result, op⟩ := h
  cases result <;> rfl

theorem Heading.statement_unplaced (h : Heading) (attrs : List Attr) (operands : List Operand)
    (stop : Nat) : h.unplaced.statement (attrs.map Attr.unplaced)
      (operands.map Operand.unplaced) 0 = (h.statement attrs operands stop).unplaced := by
  simp only [statement, start_unplaced]
  rfl

theorem Operand.ofIdent_unplaced (id : Ident) : ofIdent id.unplaced = (ofIdent id).unplaced := by
  unfold ofIdent
  have hname : id.unplaced.name = id.name := rfl
  rw [hname]
  split
  · split
    · split <;> rfl
    · rfl
  · rfl

namespace Pending

def unplaced : Pending → Pending
  | .blank => .blank
  | .named name => .named name.unplaced
  | .bound result => .bound result.unplaced
  | .headed h => .headed h.unplaced
  | .attrStart h attrs => .attrStart h.unplaced (attrs.map Attr.unplaced)
  | .attrNamed h attrs name => .attrNamed h.unplaced (attrs.map Attr.unplaced) name.unplaced
  | .attrOpen h attrs name => .attrOpen h.unplaced (attrs.map Attr.unplaced) name.unplaced
  | .attrDone h attrs => .attrDone h.unplaced (attrs.map Attr.unplaced)
  | .attrsDone h attrs => .attrsDone h.unplaced (attrs.map Attr.unplaced)
  | .dimsOpen h attrs name _ => .dimsOpen h.unplaced (attrs.map Attr.unplaced) name.unplaced 0
  | .dimDone h attrs name _ dims =>
    .dimDone h.unplaced (attrs.map Attr.unplaced) name.unplaced 0 (dims.map DimLiteral.unplaced)
  | .dimNext h attrs name _ dims =>
    .dimNext h.unplaced (attrs.map Attr.unplaced) name.unplaced 0 (dims.map DimLiteral.unplaced)
  | .operandsOpen h attrs => .operandsOpen h.unplaced (attrs.map Attr.unplaced)
  | .operandDone h attrs operands =>
    .operandDone h.unplaced (attrs.map Attr.unplaced) (operands.map Operand.unplaced)
  | .operandNext h attrs operands =>
    .operandNext h.unplaced (attrs.map Attr.unplaced) (operands.map Operand.unplaced)
  | .closed s => .closed s.unplaced

variable {p next : Pending} {l : Lexeme}

/-- One case for each token that may come at a position. -/
theorem step_unplaced (h : p.step l = some next) :
    p.unplaced.step l.unplaced = some next.unplaced := by
  obtain ⟨t, span⟩ := l
  unfold step at h
  split at h <;> cases h
  all_goals simp_all [Lexeme.unplaced, unplaced, step, Heading.unplaced, ← Operand.ofIdent_unplaced,
    ← Heading.statement_unplaced, Attr.unplaced, AttrValue.unplaced, DimLiteral.unplaced,
    Ident.unplaced, Span.nowhere]

theorem mayEnd_unplaced (p : Pending) : p.unplaced.mayEnd = p.mayEnd := by
  cases p <;> rfl

theorem finished_unplaced (p : Pending) :
    p.unplaced.finished = p.finished.map Statement.unplaced := by
  cases p <;> rfl

end Pending

variable {p : Pending} {ls ls' : List Lexeme} {ss : List Statement}

/-- What is accepted is accepted without places as well. -/
theorem Accepts.unplaced (h : Accepts p ls ss) :
    Accepts p.unplaced (ls.map Lexeme.unplaced) (ss.map Statement.unplaced) := by
  induction ls generalizing p ss with
  | nil =>
    obtain ⟨hend, rfl⟩ := accepts_nil.mp h
    exact accepts_nil.mpr ⟨(p.mayEnd_unplaced).trans hend, p.finished_unplaced.symm⟩
  | cons l ls ih =>
    obtain ⟨next, rest, hstep, rfl, hrest⟩ := accepts_cons.mp h
    refine accepts_cons.mpr ⟨next.unplaced, rest.map Statement.unplaced,
      Pending.step_unplaced hstep, ?_, ih hrest⟩
    rw [List.map_append, p.finished_unplaced]

/-! ## Line breaks in a row -/

/-- A token before others, unless it is a line break before a line break. -/
def addToken : Token → List Token → List Token
  | .newline, .newline :: ts => .newline :: ts
  | t, ts => t :: ts

/-- The tokens with each run of line breaks counted once. -/
def squeeze (ts : List Token) : List Token := ts.foldr addToken []

/-- Tokens that stand nowhere in particular. -/
abbrev placeless (ts : List Token) : List Lexeme := ts.map fun t => ⟨t, .nowhere⟩

theorem placeless_tokens (ls : List Lexeme) :
    placeless (ls.map Lexeme.token) = ls.map Lexeme.unplaced := List.map_map

theorem accepts_addToken {t : Token} {ts : List Token} :
    Accepts p (placeless (addToken t ts)) ss ↔ Accepts p (placeless (t :: ts)) ss := by
  unfold addToken
  split
  next us =>
    -- Whatever the state is, the first line break leads to the start of a line.
    have hline : ∀ next, p.step ⟨.newline, .nowhere⟩ = some next → next = .blank := by
      intro next hstep
      cases p <;> cases hstep <;> rfl
    have hbreak : ∀ rest, Accepts .blank (placeless (.newline :: us)) rest ↔
        Accepts .blank (placeless us) rest := fun rest =>
      @accepts_newlines (placeless us) rest [⟨.newline, .nowhere⟩] (by simp [Grammar.Newlines])
    constructor
    · intro h
      obtain ⟨next, rest, hstep, rfl, hrest⟩ := accepts_cons.mp h
      obtain rfl := hline next hstep
      exact accepts_cons.mpr ⟨.blank, rest, hstep, rfl, (hbreak rest).mpr hrest⟩
    · intro h
      obtain ⟨next, rest, hstep, rfl, hrest⟩ := accepts_cons.mp h
      obtain rfl := hline next hstep
      exact accepts_cons.mpr ⟨.blank, rest, hstep, rfl, (hbreak rest).mp hrest⟩
  next => rfl

/-- How many line breaks there are in a row does not matter. -/
theorem accepts_squeeze {ts : List Token} :
    Accepts p (placeless (squeeze ts)) ss ↔ Accepts p (placeless ts) ss := by
  induction ts generalizing p ss with
  | nil => rfl
  | cons t ts ih =>
    rw [squeeze, List.foldr_cons, accepts_addToken]
    simp only [placeless, List.map_cons, accepts_cons]
    simp only [← ih]
    rfl

/-! ## Programs without places -/

/-- Tokens that are the same up to places and line breaks in a row are read as the same. -/
theorem exists_accepts_of_squeeze
    (h : squeeze (ls.map Lexeme.token) = squeeze (ls'.map Lexeme.token))
    (hread : Accepts .blank ls ss) :
    ∃ ss', Accepts .blank ls' ss' ∧ ss'.map Statement.unplaced = ss.map Statement.unplaced := by
  have hplaceless := hread.unplaced
  rw [← placeless_tokens, ← accepts_squeeze, h, accepts_squeeze] at hplaceless
  obtain ⟨ss', hss'⟩ : ∃ ss', Accepts .blank ls' ss' := by
    rw [exists_accepts_iff]
    have hrun := exists_accepts_iff.mp ⟨_, hplaceless⟩
    rwa [placeless_tokens, List.map_map] at hrun
  refine ⟨ss', hss', Accepts.unique hss'.unplaced ?_⟩
  rwa [← placeless_tokens]

theorem exists_program_of_squeeze {source source' : List Char} {program : Program}
    (h : squeeze ((Source.scan source).lexemes.map Lexeme.token) =
      squeeze ((Source.scan source').lexemes.map Lexeme.token))
    (hparse : (parse source).program = some program) :
    ∃ program', (parse source').program = some program' ∧
      program'.unplaced = program.unplaced := by
  obtain ⟨ss', hss', heq⟩ :=
    exists_accepts_of_squeeze h ((program_parse_eq_some_iff source program).mp hparse).1
  refine ⟨⟨ss', _⟩, (program_parse_eq_some_iff source' _).mpr ⟨hss', rfl⟩, ?_⟩
  simp only [Program.unplaced, heq]

/-- Up to places, a program is determined by its tokens. -/
theorem program_unplaced_congr {source source' : List Char}
    (h : squeeze ((Source.scan source).lexemes.map Lexeme.token) =
      squeeze ((Source.scan source').lexemes.map Lexeme.token)) :
    (parse source).program.map Program.unplaced = (parse source').program.map Program.unplaced := by
  cases hparse : (parse source).program with
  | some program =>
    obtain ⟨program', hparse', heq⟩ := exists_program_of_squeeze h hparse
    rw [hparse', Option.map_some, Option.map_some, heq]
  | none =>
    cases hparse' : (parse source').program with
    | none => rfl
    | some program' =>
      obtain ⟨program, hsome, -⟩ := exists_program_of_squeeze h.symm hparse'
      rw [hparse] at hsome
      cases hsome

end TensorIR
