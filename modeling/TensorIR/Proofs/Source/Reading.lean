import TensorIR.Proofs.Source.Spelling
import TensorIR.Source.Parser

/-!
# Where the parts of a program come from

Whatever a program names is an identifier of its text, in the place where it stands: the names of
results as they are, and operands with a number that follows the last point taken off. Statements
stand in the text one after the other, and no two of them start at the same place; neither do two
names of attributes.

All of it follows from what one token adds to the state of the reader (`Pending.step_follows`).
-/

set_option autoImplicit false

namespace TensorIR

/-- The token as a name, if it is an identifier. -/
def Lexeme.ident? (l : Lexeme) : Option Ident :=
  match l.token with
  | .ident name => some ⟨name, l.span⟩
  | _ => none

namespace Pending

variable {p next : Pending} {l : Lexeme}

/-- The name that the current statement binds, or may turn out to bind. -/
def result? : Pending → Option Ident
  | .blank => none
  | .named name | .bound name => some name
  | .headed h | .attrStart h _ | .attrNamed h _ _ | .attrOpen h _ _ | .attrDone h _
  | .attrsDone h _ | .dimsOpen h _ _ _ | .dimDone h _ _ _ _ | .dimNext h _ _ _ _
  | .operandsOpen h _ | .operandDone h _ _ | .operandNext h _ _ => h.result
  | .closed s => s.result

/-- The operands of the current statement so far. -/
def operands : Pending → List Operand
  | .operandDone _ _ operands | .operandNext _ _ operands => operands
  | .closed s => s.operands
  | _ => []

/-- The place where the current statement starts, if it has started. -/
def start? : Pending → Option Nat
  | .blank => none
  | .named name | .bound name => some name.span.start
  | .headed h | .attrStart h _ | .attrNamed h _ _ | .attrOpen h _ _ | .attrDone h _
  | .attrsDone h _ | .dimsOpen h _ _ _ | .dimDone h _ _ _ _ | .dimNext h _ _ _ _
  | .operandsOpen h _ | .operandDone h _ _ | .operandNext h _ _ => some h.start
  | .closed s => some s.span.start

/-- Where the names of the current statement's attributes start, in order. -/
def attrStarts : Pending → List Nat
  | .attrStart _ attrs | .attrDone _ attrs | .attrsDone _ attrs | .operandsOpen _ attrs
  | .operandDone _ attrs _ | .operandNext _ attrs _ => attrs.map fun a => a.name.span.start
  | .attrNamed _ attrs name | .attrOpen _ attrs name | .dimsOpen _ attrs name _
  | .dimDone _ attrs name _ _ | .dimNext _ attrs name _ _ =>
    attrs.map (fun a => a.name.span.start) ++ [name.span.start]
  | .closed s => s.attrs.map fun a => a.name.span.start
  | _ => []

/-- What a token adds to the state: it may be the name of the result, of an operand or of an
attribute, and it may be where a statement starts. Nothing else is new. -/
structure Follows (p : Pending) (l : Lexeme) (next : Pending) : Prop where
  result : next.result? = none ∨ next.result? = p.result? ∨ next.result? = l.ident?
  operands : next.operands = [] ∨ next.operands = p.operands ∨
    next.operands = p.operands ++ l.ident?.toList.map .ofIdent
  starts : (p.finished.flatMap (fun s => [s.span.start]) ++ next.start?.toList).Sublist
    (p.start?.toList ++ [l.span.start])
  attrStarts : (p.finished.flatMap (fun s => s.attrs.map fun a => a.name.span.start) ++
    next.attrStarts).Sublist (p.attrStarts ++ [l.span.start])

/-- One case for each token that may come at a position. -/
theorem step_follows (h : p.step l = some next) : p.Follows l next := by
  unfold step at h
  split at h <;> cases h <;> constructor
  all_goals simp [result?, operands, start?, attrStarts, finished, Lexeme.ident?, Heading.start,
    Heading.statement, *]

end Pending

/-! ## Reading all tokens -/

/-- A name that is bound, and operands, come from tokens. -/
structure NamedBy (ls : List Lexeme) (result : Option Ident) (operands : List Operand) : Prop where
  result : ∀ name, result = some name → ∃ l ∈ ls, l.ident? = some name
  operands : ∀ o ∈ operands, ∃ l ∈ ls, ∃ id, l.ident? = some id ∧ o = .ofIdent id

theorem Pending.Follows.namedBy {p next : Pending} {l : Lexeme} {all : List Lexeme}
    (h : p.Follows l next) (hl : l ∈ all) (hp : NamedBy all p.result? p.operands) :
    NamedBy all next.result? next.operands where
  result := by
    intro name hname
    rcases h.result with hnone | hsame | hnew
    · rw [hnone] at hname
      cases hname
    · exact hp.result name (hsame ▸ hname)
    · exact ⟨l, hl, hnew ▸ hname⟩
  operands := by
    intro o ho
    rcases h.operands with hnone | hsame | hnew
    · rw [hnone] at ho
      cases ho
    · exact hp.operands o (hsame ▸ ho)
    · rw [hnew] at ho
      rcases List.mem_append.mp ho with ho | ho
      · exact hp.operands o ho
      · obtain ⟨id, hid, rfl⟩ := List.mem_map.mp ho
        exact ⟨l, hl, id, Option.mem_toList.mp hid, rfl⟩

theorem Pending.namedBy_finished {p : Pending} {all : List Lexeme}
    (h : NamedBy all p.result? p.operands) :
    ∀ s ∈ p.finished, NamedBy all s.result s.operands := by
  cases p with
  | closed s => exact fun t ht => List.mem_singleton.mp ht ▸ h
  | _ => exact fun t ht => by cases ht

variable {done out : List Statement} {p : Pending} {ls all : List Lexeme}

/-- What each token of a text keeps of the state, and what follows from it for a statement that is
complete, holds of all statements that are read. -/
theorem forall_readFrom {holds : Pending → Prop} {good : Statement → Prop}
    (hstep : ∀ l ∈ all, ∀ p next, p.step l = some next → holds p → holds next)
    (hfinished : ∀ p, holds p → ∀ s ∈ p.finished, good s) (h : readFrom done p ls = .ok out)
    (hsub : ∀ l ∈ ls, l ∈ all) (hdone : ∀ s ∈ done, good s) (hp : holds p) :
    ∀ s ∈ out, good s := by
  have hread : ∀ s ∈ done ++ p.finished, good s :=
    fun s hs => (List.mem_append.mp hs).elim (hdone s) (hfinished p hp s)
  induction ls generalizing done p with
  | nil =>
    rw [readFrom] at h
    split at h
    · obtain rfl := Except.ok.inj h
      exact hread
    · cases h
  | cons l ls ih =>
    obtain ⟨hl, hsub⟩ := List.forall_mem_cons.mp hsub
    rw [readFrom] at h
    split at h
    next next hnext =>
      have hheld := hstep l hl p next hnext hp
      exact ih h hsub hread hheld
        fun s hs => (List.mem_append.mp hs).elim (hread s) (hfinished next hheld s)
    next => cases h

theorem namedBy_readFrom (h : readFrom done p ls = .ok out) (hsub : ∀ l ∈ ls, l ∈ all)
    (hdone : ∀ s ∈ done, NamedBy all s.result s.operands)
    (hp : NamedBy all p.result? p.operands) :
    ∀ s ∈ out, NamedBy all s.result s.operands :=
  forall_readFrom (fun _ hl _ _ hnext hp => (Pending.step_follows hnext).namedBy hl hp)
    (fun p hp => p.namedBy_finished hp) h hsub hdone hp

/-- What a statement and the state before it record of places where tokens start is recorded in the
order of the tokens, if that is so for each step. -/
theorem places_readFrom {ofStatement : Statement → List Nat} {ofPending : Pending → List Nat}
    (hfinished : ∀ p : Pending, (p.finished.flatMap ofStatement).Sublist (ofPending p))
    (hstep : ∀ (p : Pending) l next, p.step l = some next →
      (p.finished.flatMap ofStatement ++ ofPending next).Sublist (ofPending p ++ [l.span.start]))
    (h : readFrom done p ls = .ok out) :
    (out.flatMap ofStatement).Sublist
      (done.flatMap ofStatement ++ ofPending p ++ ls.map fun l => l.span.start) := by
  induction ls generalizing done p with
  | nil =>
    rw [readFrom] at h
    split at h
    · obtain rfl := Except.ok.inj h
      rw [List.flatMap_append, List.map_nil, List.append_nil]
      exact (List.Sublist.refl _).append (hfinished p)
    · cases h
  | cons l ls ih =>
    rw [readFrom] at h
    split at h
    next next hnext =>
      refine (ih h).trans ?_
      rw [List.flatMap_append, List.map_cons, List.append_assoc (done.flatMap _),
        List.append_assoc (done.flatMap _), List.append_assoc (done.flatMap _),
        ← List.singleton_append, ← List.append_assoc (ofPending p)]
      exact (List.Sublist.refl _).append ((hstep p l next hnext).append (.refl _))
    next => cases h

/-- Statements start at tokens, each at a later one than those before. -/
theorem starts_readFrom (h : readFrom [] .blank ls = .ok out) :
    (out.map fun s => s.span.start).Sublist (ls.map fun l => l.span.start) := by
  have hfinished : ∀ p : Pending,
      (p.finished.flatMap fun s => [s.span.start]).Sublist p.start?.toList := by
    intro p
    cases p with
    | closed s => exact .refl _
    | _ => exact List.nil_sublist _
  have hplaces := places_readFrom hfinished
    (fun _ _ _ hstep => (Pending.step_follows hstep).starts) h
  rwa [← List.map_eq_flatMap] at hplaces

/-- The names of attributes start at tokens, each at a later one than those before, also from one
statement to the next. -/
theorem attrStarts_readFrom (h : readFrom [] .blank ls = .ok out) :
    (out.flatMap fun s => s.attrs.map fun a => a.name.span.start).Sublist
      (ls.map fun l => l.span.start) := by
  have hfinished : ∀ p : Pending, (p.finished.flatMap fun s =>
      s.attrs.map fun a => a.name.span.start).Sublist p.attrStarts := by
    intro p
    cases p with
    | closed s =>
      show ([s].flatMap _).Sublist _
      rw [List.flatMap_singleton]
      exact .refl _
    | _ => exact List.nil_sublist _
  exact places_readFrom hfinished
    (fun _ _ _ hstep => (Pending.step_follows hstep).attrStarts) h

/-! ## Programs of texts -/

variable {source : List Char} {program : Program} {s : Statement}

theorem readStatements_of_parse (h : (parse source).program = some program) :
    readStatements (Source.scan source).lexemes = .ok program.statements := by
  simp only [parse] at h
  split at h
  next statements hread =>
    obtain rfl := Option.some.inj h
    exact hread
  next => cases h

theorem text?_of_ident? {l : Lexeme} {id : Ident} (hl : l ∈ (Source.scan source).lexemes)
    (hid : l.ident? = some id) :
    Source.text? source id.span = some id.name.toList ∧ id.name.toList ≠ [] := by
  unfold Lexeme.ident? at hid
  split at hid
  next name hname =>
    obtain rfl := Option.some.inj hid
    exact Source.text?_ident hl hname
  next => cases hid

theorem namedBy_parse (h : (parse source).program = some program) (hs : s ∈ program.statements) :
    NamedBy (Source.scan source).lexemes s.result s.operands :=
  namedBy_readFrom (readStatements_of_parse h) (fun _ hl => hl) (by simp)
    ⟨fun _ hname => (by cases hname), fun _ ho => (by cases ho)⟩ s hs

/-- The name that a statement binds is the text in its place. -/
theorem text?_result (h : (parse source).program = some program) (hs : s ∈ program.statements)
    {name : Ident} (hname : s.result = some name) :
    Source.text? source name.span = some name.name.toList ∧ name.name.toList ≠ [] := by
  obtain ⟨l, hl, hid⟩ := (namedBy_parse h hs).result name hname
  exact text?_of_ident? hl hid

/-- An operand is what the text in its place spells. -/
theorem exists_ident_of_operand (h : (parse source).program = some program)
    (hs : s ∈ program.statements) {o : Operand} (ho : o ∈ s.operands) :
    ∃ id, Source.text? source id.span = some id.name.toList ∧ o = .ofIdent id := by
  obtain ⟨l, hl, id, hid, rfl⟩ := (namedBy_parse h hs).operands o ho
  exact ⟨id, (text?_of_ident? hl hid).1, rfl⟩

/-- Statements stand in the text one after the other. -/
theorem ordered_statements (h : (parse source).program = some program) :
    program.statements.Pairwise fun s t => s.span.start < t.span.start := by
  refine List.pairwise_map.mp ?_
  exact (List.pairwise_map.mpr (Source.ordered_lexemes source)).sublist
    (starts_readFrom (readStatements_of_parse h))

/-- So do the names of attributes, within a statement and from one statement to the next. -/
theorem ordered_attrs (h : (parse source).program = some program) :
    (program.statements.flatMap Statement.attrs).Pairwise fun a b =>
      a.name.span.start < b.name.span.start := by
  refine List.pairwise_map.mp ?_
  rw [List.map_flatMap]
  exact (List.pairwise_map.mpr (Source.ordered_lexemes source)).sublist
    (attrStarts_readFrom (readStatements_of_parse h))

end TensorIR
