import TensorIR.Proofs.Source.Operands
import TensorIR.Proofs.Source.Spelling
import TensorIR.Source.Parser

/-!
# The reader against the grammar

The grammar is stated here as it is written, production by production: which tokens form a part of
a program, and which part they form. The reader has no productions. It goes from token to token,
and its state is all that it knows.

The two are joined state by state. What is accepted in a state is a phrase of the grammar, followed
by what is accepted in the state after that phrase (`Leads`). This goes from the smallest phrases to
the whole program, so that what the reader accepts at the start is a program (`accepts_program`),
and what it builds on the way is that program's tree.
-/

set_option autoImplicit false

namespace TensorIR

namespace Grammar

/-! ## Productions -/

section Operators

variable {α : Type}

/-- A phrase or nothing. -/
inductive Optional (phrase : List Lexeme → List α → Prop) : List Lexeme → List α → Prop
  | none : Optional phrase [] []
  | some {ls : List Lexeme} {as : List α} (h : phrase ls as) : Optional phrase ls as

/-- A phrase after a separator. -/
inductive Preceded (sep : List Lexeme → Prop) (phrase : List Lexeme → α → Prop) :
    List Lexeme → α → Prop
  | mk {between ls : List Lexeme} {a : α} (hsep : sep between) (h : phrase ls a) :
    Preceded sep phrase (between ++ ls) a

/-- Any number of phrases. -/
inductive Repeated (phrase : List Lexeme → α → Prop) : List Lexeme → List α → Prop
  | nil : Repeated phrase [] []
  | cons {front back : List Lexeme} {a : α} {as : List α} (h : phrase front a)
    (hrest : Repeated phrase back as) : Repeated phrase (front ++ back) (a :: as)

/-- One or more phrases with separators between them. -/
inductive Separated (sep : List Lexeme → Prop) (phrase : List Lexeme → α → Prop) :
    List Lexeme → List α → Prop
  | mk {front back : List Lexeme} {a : α} {as : List α} (h : phrase front a)
    (hrest : Repeated (Preceded sep phrase) back as) :
    Separated sep phrase (front ++ back) (a :: as)

end Operators

def Comma (ls : List Lexeme) : Prop := ∃ span, ls = [⟨.comma, span⟩]

/-- Any number of newlines. -/
def Newlines (ls : List Lexeme) : Prop := ∀ l ∈ ls, l.token = .newline

/-- One newline or more. -/
def LineBreak (ls : List Lexeme) : Prop := ls ≠ [] ∧ Newlines ls

inductive IsDim : List Lexeme → DimLiteral → Prop
  | int (n : Int) (span : Span) : IsDim [⟨.int n, span⟩] (.fixed n span)
  | question (span : Span) : IsDim [⟨.question, span⟩] (.dynamic span)

inductive IsValue : List Lexeme → AttrValue → Prop
  | int (n : Int) (span : Span) : IsValue [⟨.int n, span⟩] (.int n span)
  | float (v : Binary64) (span : Span) : IsValue [⟨.float v, span⟩] (.float v span)
  | ident (name : String) (span : Span) : IsValue [⟨.ident name, span⟩] (.ident ⟨name, span⟩)
  | question (span : Span) : IsValue [⟨.question, span⟩] (.dynamic span)
  | dims {ls : List Lexeme} {dims : List DimLiteral} (l r : Span)
    (h : Optional (Separated Comma IsDim) ls dims) :
    IsValue (⟨.leftBracket, l⟩ :: (ls ++ [⟨.rightBracket, r⟩])) (.dims dims ⟨l.start, r.stop⟩)

inductive IsAttr : List Lexeme → Attr → Prop
  | mk {ls : List Lexeme} {value : AttrValue} (name : String) (span equals : Span)
    (h : IsValue ls value) :
    IsAttr (⟨.ident name, span⟩ :: ⟨.equals, equals⟩ :: ls) ⟨⟨name, span⟩, value⟩

inductive IsAttrs : List Lexeme → List Attr → Prop
  | mk {ls : List Lexeme} {attrs : List Attr} (l r : Span) (h : Separated Comma IsAttr ls attrs) :
    IsAttrs (⟨.leftBracket, l⟩ :: (ls ++ [⟨.rightBracket, r⟩])) attrs

inductive IsOperand : List Lexeme → Operand → Prop
  | mk {o : Operand} (name : String) (span : Span) (h : Operand.Spells ⟨name, span⟩ o) :
    IsOperand [⟨.ident name, span⟩] o

/-- The name that a statement binds, if it binds one. -/
inductive IsBinding : List Lexeme → Option Ident → Prop
  | none : IsBinding [] none
  | some (name : String) (span equals : Span) :
    IsBinding [⟨.ident name, span⟩, ⟨.equals, equals⟩] (some ⟨name, span⟩)

/-- A statement starts where its first token starts and stops where its last token stops. -/
inductive IsStatement : List Lexeme → Statement → Prop
  | mk {bs as os : List Lexeme} {result : Option Ident} {attrs : List Attr}
    {operands : List Operand} (op : String) (span l r : Span) (hbinding : IsBinding bs result)
    (hattrs : Optional IsAttrs as attrs)
    (hoperands : Optional (Separated Comma IsOperand) os operands) :
    IsStatement
      (bs ++ ⟨.ident op, span⟩ :: (as ++ ⟨.leftParen, l⟩ :: (os ++ [⟨.rightParen, r⟩])))
      ⟨result, ⟨op, span⟩, attrs, operands, ⟨(result.getD ⟨op, span⟩).span.start, r.stop⟩⟩

inductive IsProgram : List Lexeme → List Statement → Prop
  | mk {front ls back : List Lexeme} {ss : List Statement} (hfront : Newlines front)
    (h : Optional (Separated LineBreak IsStatement) ls ss) (hback : Newlines back) :
    IsProgram (front ++ ls ++ back) ss

end Grammar

open Grammar

/-! ## What is accepted in a state -/

variable {p next : Pending} {l : Lexeme} {ls : List Lexeme} {ss done : List Statement}

/-- Reading the tokens in a state leads to these statements. -/
def Accepts (p : Pending) (ls : List Lexeme) (ss : List Statement) : Prop :=
  readFrom [] p ls = .ok ss

theorem readFrom_eq (done : List Statement) (p : Pending) (ls : List Lexeme) :
    readFrom done p ls = (readFrom [] p ls).map (done ++ ·) := by
  induction ls generalizing done p with
  | nil =>
    simp only [readFrom, List.nil_append]
    split <;> rfl
  | cons l ls ih =>
    simp only [readFrom, List.nil_append]
    split
    next next hstep =>
      rw [ih (done ++ p.finished), ih p.finished]
      cases readFrom [] next ls with
      | ok out => simp [Except.map]
      | error stop => rfl
    next => rfl

theorem accepts_nil : Accepts p [] ss ↔ p.mayEnd = true ∧ ss = p.finished := by
  simp only [Accepts, readFrom, List.nil_append]
  by_cases hend : p.mayEnd = true
  · simp [hend, eq_comm]
  · simp [hend]

theorem accepts_cons : Accepts p (l :: ls) ss ↔
    ∃ next ss', p.step l = some next ∧ ss = p.finished ++ ss' ∧ Accepts next ls ss' := by
  simp only [Accepts, readFrom, List.nil_append]
  cases p.step l with
  | none => simp
  | some next =>
    simp only [readFrom_eq p.finished]
    cases hread : readFrom [] next ls with
    | ok out => simp [Except.map, hread, eq_comm]
    | error stop => simp [Except.map, hread]

/-- What is accepted does not depend on the way the reader takes. -/
theorem Accepts.unique {ss' : List Statement} (h : Accepts p ls ss) (h' : Accepts p ls ss') :
    ss = ss' :=
  Except.ok.inj (h.symm.trans h')

/-- Inside a statement a token has to come that leads on. -/
theorem accepts_iff (hp : p.mayEnd = false) : Accepts p ls ss ↔ ∃ t span back next,
    ls = ⟨t, span⟩ :: back ∧ p.step ⟨t, span⟩ = some next ∧ Accepts next back ss := by
  have hfinished : p.finished = [] := by
    cases p <;> first | rfl | cases hp
  cases ls with
  | nil => simp [accepts_nil, hp]
  | cons l ls =>
    rw [accepts_cons, hfinished]
    constructor
    · rintro ⟨next, ss', hstep, rfl, h⟩
      exact ⟨l.token, l.span, ls, next, rfl, hstep, h⟩
    · rintro ⟨t, span, back, next, heq, hstep, h⟩
      obtain ⟨rfl, rfl⟩ := List.cons.inj heq
      exact ⟨next, ss, hstep, rfl, h⟩

theorem accepts_of_step (hp : p.mayEnd = false) (hstep : p.step l = some next)
    (h : Accepts next ls ss) : Accepts p (l :: ls) ss :=
  (accepts_iff hp).mpr ⟨l.token, l.span, ls, next, rfl, hstep, h⟩

/-- In the first state exactly that is accepted which has a phrase in front and continues as is
accepted in the second, which depends on what the phrase is. -/
def Leads {α : Type} (p : Pending) (phrase : List Lexeme → α → Prop) (q : α → Pending) : Prop :=
  ∀ ls ss, Accepts p ls ss ↔
    ∃ front a back, ls = front ++ back ∧ phrase front a ∧ Accepts (q a) back ss

/-! ## Lists -/

section Listing

variable {α : Type} {close : Token} {item : List Lexeme → α → Prop} {next after : List α → Pending}
  {finish : List α → Span → Pending} {start : Pending} {as : List α}

/-- The states of a list with commas in it: before an item, after an item, and after the end. -/
structure Listing (close : Token) (item : List Lexeme → α → Prop) (next after : List α → Pending)
    (finish : List α → Span → Pending) : Prop where
  leads : ∀ as, Leads (next as) item fun a => after (as ++ [a])
  inside : ∀ as, (after as).mayEnd = false
  goesOn : ∀ as span, (after as).step ⟨.comma, span⟩ = some (next as)
  ends : ∀ as span, (after as).step ⟨close, span⟩ = some (finish as span)
  only : ∀ as t span q, (after as).step ⟨t, span⟩ = some q → t = .comma ∨ t = close

theorem Listing.accepts_comma (h : Listing close item next after finish) {span : Span}
    (hls : Accepts (next as) ls ss) : Accepts (after as) (⟨.comma, span⟩ :: ls) ss :=
  accepts_of_step (h.inside as) (h.goesOn as span) hls

theorem Listing.accepts_close (h : Listing close item next after finish) {span : Span}
    (hls : Accepts (finish as span) ls ss) : Accepts (after as) (⟨close, span⟩ :: ls) ss :=
  accepts_of_step (h.inside as) (h.ends as span) hls

/-- After an item there are any number of items more. By induction on what is left to read: an item
that a comma announces is in front of less. -/
theorem Listing.exists_rest (h : Listing close item next after finish) (n : Nat) :
    ∀ as ls, ls.length < n → Accepts (after as) ls ss → ∃ more bs span back,
      ls = more ++ ⟨close, span⟩ :: back ∧ Repeated (Preceded Comma item) more bs ∧
        Accepts (finish (as ++ bs) span) back ss := by
  induction n with
  | zero =>
    intro as ls hn
    omega
  | succ n ih =>
    intro as ls hn hls
    obtain ⟨t, span, back, q, rfl, hstep, hback⟩ := (accepts_iff (h.inside as)).mp hls
    rcases h.only as t span q hstep with rfl | rfl
    · obtain rfl := Option.some.inj ((h.goesOn as span).symm.trans hstep)
      obtain ⟨front, a, back, rfl, hitem, hback⟩ := (h.leads as back ss).mp hback
      have hshort : back.length < n := by
        simp only [List.length_cons, List.length_append] at hn
        omega
      obtain ⟨more, bs, stop, back, rfl, hmore, hback⟩ := ih (as ++ [a]) back hshort hback
      have hmore : Repeated (Preceded Comma item) ([⟨.comma, span⟩] ++ front ++ more) (a :: bs) :=
        .cons (.mk ⟨span, rfl⟩ hitem) hmore
      exact ⟨_, a :: bs, stop, back, by simp, hmore, by simpa using hback⟩
    · obtain rfl := Option.some.inj ((h.ends as span).symm.trans hstep)
      exact ⟨[], [], span, back, rfl, .nil, by simpa using hback⟩

theorem Listing.accepts_after (h : Listing close item next after finish) :
    Accepts (after as) ls ss ↔ ∃ more bs span back,
      ls = more ++ ⟨close, span⟩ :: back ∧ Repeated (Preceded Comma item) more bs ∧
        Accepts (finish (as ++ bs) span) back ss := by
  constructor
  · exact h.exists_rest _ as ls (Nat.lt_succ_self _)
  · rintro ⟨more, bs, span, back, rfl, hmore, hback⟩
    induction hmore generalizing as with
    | nil => exact h.accepts_close (by simpa using hback)
    | @cons front more a bs hfront hmore ih =>
      obtain ⟨⟨comma, rfl⟩, hitem⟩ := hfront
      refine h.accepts_comma ((h.leads as _ ss).mpr ⟨_, a, _, List.append_assoc .., hitem, ?_⟩)
      exact ih (by simpa using hback)

theorem Listing.accepts_next (h : Listing close item next after finish) :
    Accepts (next []) ls ss ↔ ∃ front as span back,
      ls = front ++ ⟨close, span⟩ :: back ∧ Separated Comma item front as ∧
        Accepts (finish as span) back ss := by
  constructor
  · intro hls
    obtain ⟨front, a, back, rfl, hitem, hback⟩ := (h.leads [] ls ss).mp hls
    obtain ⟨more, bs, span, back, rfl, hmore, hback⟩ := h.accepts_after.mp hback
    exact ⟨front ++ more, a :: bs, span, back, by simp, .mk hitem hmore, hback⟩
  · rintro ⟨_, _, span, back, rfl, ⟨hitem, hmore⟩, hback⟩
    refine (h.leads [] _ ss).mpr ⟨_, _, _, List.append_assoc .., hitem, ?_⟩
    exact h.accepts_after.mpr ⟨_, _, span, back, rfl, hmore, hback⟩

/-- The state at the start of a list that may be empty: it ends there, or its first item is read as a
further one would be. -/
structure Opening (close : Token) (next : List α → Pending) (finish : List α → Span → Pending)
    (start : Pending) : Prop where
  inside : start.mayEnd = false
  insideNext : (next []).mayEnd = false
  ends : ∀ span, start.step ⟨close, span⟩ = some (finish [] span)
  starts : ∀ t span q, (next []).step ⟨t, span⟩ = some q → start.step ⟨t, span⟩ = some q
  only : ∀ t span q, start.step ⟨t, span⟩ = some q →
    t = close ∨ (next []).step ⟨t, span⟩ = some q

theorem Opening.accepts_start (h : Opening close next finish start) : Accepts start ls ss ↔
    (∃ span back, ls = ⟨close, span⟩ :: back ∧ Accepts (finish [] span) back ss) ∨
      Accepts (next []) ls ss := by
  constructor
  · intro hls
    obtain ⟨t, span, back, q, rfl, hstep, hback⟩ := (accepts_iff h.inside).mp hls
    rcases h.only t span q hstep with rfl | hnext
    · obtain rfl := Option.some.inj ((h.ends span).symm.trans hstep)
      exact .inl ⟨span, back, rfl, hback⟩
    · exact .inr (accepts_of_step h.insideNext hnext hback)
  · rintro (⟨span, back, rfl, hback⟩ | hls)
    · exact accepts_of_step h.inside (h.ends span) hback
    · obtain ⟨t, span, back, q, rfl, hnext, hback⟩ := (accepts_iff h.insideNext).mp hls
      exact accepts_of_step h.inside (h.starts t span q hnext) hback

theorem Listing.accepts_open (h : Listing close item next after finish)
    (hopen : Opening close next finish start) :
    Accepts start ls ss ↔ ∃ front as span back,
      ls = front ++ ⟨close, span⟩ :: back ∧ Optional (Separated Comma item) front as ∧
        Accepts (finish as span) back ss := by
  rw [hopen.accepts_start, h.accepts_next]
  constructor
  · rintro (⟨span, back, rfl, hback⟩ | ⟨front, as, span, back, rfl, hfront, hback⟩)
    · exact ⟨[], [], span, back, rfl, .none, hback⟩
    · exact ⟨front, as, span, back, rfl, .some hfront, hback⟩
  · rintro ⟨front, as, span, back, rfl, hfront, hback⟩
    cases hfront with
    | none => exact .inl ⟨span, back, rfl, hback⟩
    | some hfront => exact .inr ⟨front, as, span, back, rfl, hfront, hback⟩

end Listing

namespace Pending

variable {result name : Ident} {heading : Heading} {attrs : List Attr} {start : Nat}
  {dims : List DimLiteral} {operands : List Operand} {s : Statement}

/-! ## Phrases -/

theorem leads_dim :
    Leads (.dimNext heading attrs name start dims) IsDim
      fun dim => .dimDone heading attrs name start (dims ++ [dim]) := by
  intro ls ss
  constructor
  · intro h
    obtain ⟨t, span, back, next, rfl, hstep, h⟩ := (accepts_iff rfl).mp h
    -- A token that may not come leads to no state, so only those remain that start a dimension.
    cases t <;> cases hstep
    · exact ⟨[_], _, back, rfl, .question span, h⟩
    · exact ⟨[_], _, back, rfl, .int _ span, h⟩
  · rintro ⟨_, _, back, rfl, hdim, h⟩
    cases hdim with
    | int n span => exact accepts_of_step rfl rfl h
    | question span => exact accepts_of_step rfl rfl h

theorem listing_dims :
    Listing .rightBracket IsDim (.dimNext heading attrs name start)
      (.dimDone heading attrs name start)
      fun dims span => .attrDone heading (attrs ++ [⟨name, .dims dims ⟨start, span.stop⟩⟩]) where
  leads := fun _ => leads_dim
  inside := fun _ => rfl
  goesOn := fun _ _ => rfl
  ends := fun _ _ => rfl
  only := by
    intro dims t span q hstep
    cases t <;> cases hstep <;> simp

theorem opening_dims :
    Opening .rightBracket (.dimNext heading attrs name start)
      (fun dims span => .attrDone heading (attrs ++ [⟨name, .dims dims ⟨start, span.stop⟩⟩]))
      (.dimsOpen heading attrs name start) where
  inside := rfl
  insideNext := rfl
  ends := fun _ => rfl
  starts := by
    intro t span q hstep
    cases t <;> cases hstep <;> rfl
  only := by
    intro t span q hstep
    cases t <;> cases hstep <;> first | exact .inl rfl | exact .inr rfl

theorem leads_value :
    Leads (.attrOpen heading attrs name) IsValue
      fun value => .attrDone heading (attrs ++ [⟨name, value⟩]) := by
  intro ls ss
  constructor
  · intro h
    obtain ⟨t, span, back, next, rfl, hstep, h⟩ := (accepts_iff rfl).mp h
    cases t <;> cases hstep
    · obtain ⟨front, dims, r, back, rfl, hdims, h⟩ :=
        (listing_dims.accepts_open opening_dims).mp h
      exact ⟨_ :: (front ++ [_]), _, back, by simp, .dims span r hdims, h⟩
    · exact ⟨[_], _, back, rfl, .question span, h⟩
    · exact ⟨[_], _, back, rfl, .float _ span, h⟩
    · exact ⟨[_], _, back, rfl, .int _ span, h⟩
    · exact ⟨[_], _, back, rfl, .ident _ span, h⟩
  · rintro ⟨_, _, back, rfl, hvalue, h⟩
    cases hvalue with
    | int n span => exact accepts_of_step rfl rfl h
    | float v span => exact accepts_of_step rfl rfl h
    | ident value span => exact accepts_of_step rfl rfl h
    | question span => exact accepts_of_step rfl rfl h
    | dims l r hdims =>
      refine accepts_of_step rfl rfl ?_
      exact (listing_dims.accepts_open opening_dims).mpr ⟨_, _, r, back, by simp, hdims, h⟩

theorem leads_attr :
    Leads (.attrStart heading attrs) IsAttr fun attr => .attrDone heading (attrs ++ [attr]) := by
  intro ls ss
  constructor
  · intro h
    obtain ⟨t, span, _, next, rfl, hstep, h⟩ := (accepts_iff rfl).mp h
    cases t <;> cases hstep
    obtain ⟨t, equals, _, next, rfl, hstep, h⟩ := (accepts_iff rfl).mp h
    cases t <;> cases hstep
    obtain ⟨front, value, back, rfl, hvalue, h⟩ := (leads_value _ ss).mp h
    exact ⟨_ :: _ :: front, _, back, rfl, .mk _ span equals hvalue, h⟩
  · rintro ⟨_, _, back, rfl, ⟨name, span, equals, hvalue⟩, h⟩
    refine accepts_of_step rfl rfl (accepts_of_step rfl rfl ?_)
    exact (leads_value _ ss).mpr ⟨_, _, back, rfl, hvalue, h⟩

theorem listing_attrs :
    Listing .rightBracket IsAttr (.attrStart heading) (.attrDone heading)
      fun attrs _ => .attrsDone heading attrs where
  leads := fun _ => leads_attr
  inside := fun _ => rfl
  goesOn := fun _ _ => rfl
  ends := fun _ _ => rfl
  only := by
    intro attrs t span q hstep
    cases t <;> cases hstep <;> simp

theorem leads_operand :
    Leads (.operandNext heading attrs operands) IsOperand
      fun operand => .operandDone heading attrs (operands ++ [operand]) := by
  intro ls ss
  constructor
  · intro h
    obtain ⟨t, span, back, next, rfl, hstep, h⟩ := (accepts_iff rfl).mp h
    cases t <;> cases hstep
    exact ⟨[_], _, back, rfl, .mk _ span (Operand.spells_iff.mpr rfl), h⟩
  · rintro ⟨_, operand, back, rfl, ⟨name, span, hspells⟩, h⟩
    obtain rfl := Operand.spells_iff.mp hspells
    exact accepts_of_step rfl rfl h

theorem listing_operands :
    Listing .rightParen IsOperand (.operandNext heading attrs) (.operandDone heading attrs)
      fun operands span => .closed (heading.statement attrs operands span.stop) where
  leads := fun _ => leads_operand
  inside := fun _ => rfl
  goesOn := fun _ _ => rfl
  ends := fun _ _ => rfl
  only := by
    intro operands t span q hstep
    cases t <;> cases hstep <;> simp

theorem opening_operands :
    Opening .rightParen (.operandNext heading attrs)
      (fun operands span => .closed (heading.statement attrs operands span.stop))
      (.operandsOpen heading attrs) where
  inside := rfl
  insideNext := rfl
  ends := fun _ => rfl
  starts := by
    intro t span q hstep
    cases t <;> cases hstep
    rfl
  only := by
    intro t span q hstep
    cases t <;> cases hstep <;> first | exact .inl rfl | exact .inr rfl

/-- From the operation on, a statement has attributes if it has any, and operands. -/
theorem accepts_call : Accepts (.headed heading) ls ss ↔ ∃ as attrs l os operands r back,
    ls = as ++ ⟨.leftParen, l⟩ :: (os ++ ⟨.rightParen, r⟩ :: back) ∧ Optional IsAttrs as attrs ∧
      Optional (Separated Comma IsOperand) os operands ∧
      Accepts (.closed (heading.statement attrs operands r.stop)) back ss := by
  have hoperands : ∀ attrs ls, Accepts (.operandsOpen heading attrs) ls ss ↔
      ∃ os operands r back, ls = os ++ ⟨.rightParen, r⟩ :: back ∧
        Optional (Separated Comma IsOperand) os operands ∧
        Accepts (.closed (heading.statement attrs operands r.stop)) back ss :=
    fun attrs ls => listing_operands.accepts_open opening_operands
  constructor
  · intro h
    obtain ⟨t, l, _, next, rfl, hstep, h⟩ := (accepts_iff rfl).mp h
    cases t <;> cases hstep
    · obtain ⟨os, operands, stop, back, rfl, hos, h⟩ := (hoperands _ _).mp h
      exact ⟨[], [], l, os, operands, stop, back, rfl, .none, hos, h⟩
    · obtain ⟨front, attrs, r, _, rfl, hattrs, h⟩ := listing_attrs.accepts_next.mp h
      obtain ⟨t, paren, _, next, rfl, hstep, h⟩ := (accepts_iff rfl).mp h
      cases t <;> cases hstep
      obtain ⟨os, operands, stop, back, rfl, hos, h⟩ := (hoperands _ _).mp h
      exact ⟨_ :: (front ++ [_]), attrs, paren, os, operands, stop, back, by simp,
        .some (.mk l r hattrs), hos, h⟩
  · rintro ⟨as, attrs, l, os, operands, r, back, rfl, hattrs, hos, h⟩
    have hcall : Accepts (.operandsOpen heading attrs) (os ++ ⟨.rightParen, r⟩ :: back) ss :=
      (hoperands _ _).mpr ⟨os, operands, r, back, rfl, hos, h⟩
    cases hattrs with
    | none => exact accepts_of_step rfl rfl hcall
    | some hattrs =>
      obtain ⟨bracket, shut, hattrs⟩ := hattrs
      have hdone : Accepts (.attrsDone heading attrs) (⟨.leftParen, l⟩ :: _) ss :=
        accepts_of_step rfl rfl hcall
      refine accepts_of_step rfl rfl (listing_attrs.accepts_next.mpr ?_)
      exact ⟨_, attrs, shut, _, List.append_assoc .., hattrs, hdone⟩

/-- A name that no `=` follows is the operation. -/
theorem accepts_named : Accepts (.named name) ls ss ↔
    (∃ equals op span back, ls = ⟨.equals, equals⟩ :: ⟨.ident op, span⟩ :: back ∧
      Accepts (.headed ⟨some name, ⟨op, span⟩⟩) back ss) ∨
    Accepts (.headed ⟨none, name⟩) ls ss := by
  constructor
  · intro h
    obtain ⟨t, equals, back, next, rfl, hstep, h⟩ := (accepts_iff rfl).mp h
    cases t <;> cases hstep
    · exact .inr (accepts_of_step rfl rfl h)
    · exact .inr (accepts_of_step rfl rfl h)
    · obtain ⟨t, span, back, next, rfl, hstep, h⟩ := (accepts_iff rfl).mp h
      cases t <;> cases hstep
      exact .inl ⟨equals, _, span, back, rfl, h⟩
  · rintro (⟨equals, op, span, back, rfl, h⟩ | h)
    · exact accepts_of_step rfl rfl (accepts_of_step rfl rfl h)
    · obtain ⟨t, span, back, next, rfl, hstep, h⟩ := (accepts_iff rfl).mp h
      cases t <;> cases hstep <;> exact accepts_of_step rfl rfl h

/-- A name is the start of a statement: of one that binds it if an `=` follows, and otherwise of one
that applies it. -/
theorem accepts_statement : (∃ name span back, ls = ⟨.ident name, span⟩ :: back ∧
      Accepts (.named ⟨name, span⟩) back ss) ↔
    ∃ front s back, ls = front ++ back ∧ IsStatement front s ∧ Accepts (.closed s) back ss := by
  simp only [accepts_named, accepts_call]
  constructor
  · rintro ⟨name, span, _, rfl, ⟨equals, op, opSpan, _, rfl, hcall⟩ | hcall⟩
    · obtain ⟨as, attrs, l, os, operands, r, back, rfl, hattrs, hos, h⟩ := hcall
      refine ⟨_, _, back, ?_, .mk op opSpan l r (.some name span equals) hattrs hos, h⟩
      simp
    · obtain ⟨as, attrs, l, os, operands, r, back, rfl, hattrs, hos, h⟩ := hcall
      refine ⟨_, _, back, ?_, .mk name span l r .none hattrs hos, h⟩
      simp
  · rintro ⟨_, _, back, rfl, hstatement, h⟩
    obtain @⟨_, as, os, _, attrs, operands, op, span, l, r, hbinding, hattrs, hos⟩ := hstatement
    cases hbinding with
    | none =>
      refine ⟨op, span, _, rfl, .inr ⟨as, attrs, l, os, operands, r, back, ?_, hattrs, hos, h⟩⟩
      simp
    | some name nameSpan equals =>
      refine ⟨name, nameSpan, _, rfl, .inl ⟨equals, op, span, _, rfl, as, attrs, l, os, operands, r,
        back, ?_, hattrs, hos, h⟩⟩
      simp

/-! ## Ends of lines -/

theorem accepts_blank : Accepts .blank ls ss ↔
    (ls = [] ∧ ss = []) ∨ (∃ span back, ls = ⟨.newline, span⟩ :: back ∧ Accepts .blank back ss) ∨
    ∃ name span back, ls = ⟨.ident name, span⟩ :: back ∧ Accepts (.named ⟨name, span⟩) back ss := by
  rcases ls with _ | ⟨⟨t, span⟩, ls⟩
  · simp [accepts_nil, mayEnd, finished]
  · constructor
    · intro h
      obtain ⟨next, ss, hstep, rfl, h⟩ := accepts_cons.mp h
      cases t <;> cases hstep
      · exact .inr (.inr ⟨_, span, ls, rfl, h⟩)
      · exact .inr (.inl ⟨span, ls, rfl, h⟩)
    · rintro (⟨hls, -⟩ | ⟨_, _, hls, h⟩ | ⟨_, _, _, hls, h⟩)
      · cases hls
      · cases hls
        exact accepts_cons.mpr ⟨_, ss, rfl, rfl, h⟩
      · cases hls
        exact accepts_cons.mpr ⟨_, ss, rfl, rfl, h⟩

theorem accepts_closed : Accepts (.closed s) ls ss ↔
    (ls = [] ∧ ss = [s]) ∨ ∃ span back ss', ls = ⟨.newline, span⟩ :: back ∧ ss = s :: ss' ∧
      Accepts .blank back ss' := by
  rcases ls with _ | ⟨⟨t, span⟩, ls⟩
  · simp [accepts_nil, mayEnd, finished]
  · constructor
    · intro h
      obtain ⟨next, ss', hstep, rfl, h⟩ := accepts_cons.mp h
      cases t <;> cases hstep
      exact .inr ⟨span, ls, ss', rfl, rfl, h⟩
    · rintro (⟨hls, -⟩ | ⟨_, _, ss', hls, rfl, h⟩)
      · cases hls
      · cases hls
        exact accepts_cons.mpr ⟨_, ss', rfl, rfl, h⟩

end Pending

/-! ## Programs -/

theorem newlines_nil : Newlines [] := List.forall_mem_nil _

theorem newlines_cons {l : Lexeme} {ls : List Lexeme} :
    Newlines (l :: ls) ↔ (∃ span, l = ⟨.newline, span⟩) ∧ Newlines ls := by
  have hl : l.token = .newline ↔ ∃ span, l = ⟨.newline, span⟩ :=
    ⟨fun h => ⟨l.span, h ▸ rfl⟩, fun ⟨_, h⟩ => h ▸ rfl⟩
  rw [← hl]
  exact List.forall_mem_cons

theorem Newlines.append {front back : List Lexeme} (hfront : Newlines front)
    (hback : Newlines back) : Newlines (front ++ back) :=
  List.forall_mem_append.mpr ⟨hfront, hback⟩

/-- Newlines do not matter at the start of a line. -/
theorem accepts_newlines {front : List Lexeme} (h : Newlines front) :
    Accepts .blank (front ++ ls) ss ↔ Accepts .blank ls ss := by
  induction front with
  | nil => rfl
  | cons l front ih =>
    obtain ⟨⟨span, rfl⟩, hfront⟩ := newlines_cons.mp h
    rw [← ih hfront]
    constructor
    · intro h
      obtain ⟨next, ss', hstep, rfl, h⟩ := accepts_cons.mp h
      cases hstep
      exact h
    · intro h
      exact accepts_cons.mpr ⟨_, ss, rfl, rfl, h⟩

/-- At the start of a line there is nothing left but newlines, or there is a statement. -/
theorem accepts_line : Accepts .blank ls ss ↔ (Newlines ls ∧ ss = []) ∨
    ∃ front mid s back, ls = front ++ (mid ++ back) ∧ Newlines front ∧ IsStatement mid s ∧
      Accepts (.closed s) back ss := by
  constructor
  · intro h
    induction ls with
    | nil => exact .inl ⟨newlines_nil, (accepts_nil.mp h).2⟩
    | cons l ls ih =>
      rcases Pending.accepts_blank.mp h with ⟨h, -⟩ | ⟨span, back, hl, h⟩ | hname
      · cases h
      · obtain ⟨rfl, rfl⟩ := List.cons.inj hl
        rcases ih h with ⟨hls, rfl⟩ | ⟨front, mid, s, back, rfl, hfront, hmid, h⟩
        · exact .inl ⟨newlines_cons.mpr ⟨⟨_, rfl⟩, hls⟩, rfl⟩
        · exact .inr ⟨_ :: front, mid, s, back, rfl, newlines_cons.mpr ⟨⟨_, rfl⟩, hfront⟩, hmid, h⟩
      · obtain ⟨mid, s, back, hls, hmid, h⟩ := Pending.accepts_statement.mp hname
        exact .inr ⟨[], mid, s, back, hls, newlines_nil, hmid, h⟩
  · rintro (⟨hls, rfl⟩ | ⟨front, mid, s, back, rfl, hfront, hmid, h⟩)
    · rw [← List.append_nil ls, accepts_newlines hls]
      exact accepts_nil.mpr ⟨rfl, rfl⟩
    · rw [accepts_newlines hfront]
      exact Pending.accepts_blank.mpr
        (.inr (.inr (Pending.accepts_statement.mpr ⟨mid, s, back, rfl, hmid, h⟩)))

/-- What follows a statement, by induction on what is left to read. -/
theorem exists_lines (n : Nat) : ∀ ls s ss, ls.length < n → Accepts (.closed s) ls ss →
    ∃ more bs back, ls = more ++ back ∧ Repeated (Preceded LineBreak IsStatement) more bs ∧
      Newlines back ∧ ss = s :: bs := by
  induction n with
  | zero =>
    intro ls s ss hn
    omega
  | succ n ih =>
    intro ls s ss hn h
    rcases Pending.accepts_closed.mp h with ⟨rfl, rfl⟩ | ⟨span, rest, ss', rfl, rfl, hline⟩
    · exact ⟨[], [], [], rfl, .nil, newlines_nil, rfl⟩
    · rcases accepts_line.mp hline with ⟨hrest, rfl⟩ | ⟨front, mid, t, back, rfl, hfront, hmid, h⟩
      · exact ⟨[], [], _, rfl, .nil, newlines_cons.mpr ⟨⟨_, rfl⟩, hrest⟩, rfl⟩
      · have hshort : back.length < n := by
          simp only [List.length_cons, List.length_append] at hn
          omega
        obtain ⟨more, bs, back, rfl, hmore, hback, rfl⟩ := ih back t ss' hshort h
        have hbreak : LineBreak (⟨.newline, span⟩ :: front) :=
          ⟨List.cons_ne_nil _ _, newlines_cons.mpr ⟨⟨_, rfl⟩, hfront⟩⟩
        refine ⟨_, t :: bs, back, ?_, .cons (.mk hbreak hmid) hmore, hback, rfl⟩
        simp

theorem accepts_lines {s : Statement} : Accepts (.closed s) ls ss ↔
    ∃ more bs back, ls = more ++ back ∧ Repeated (Preceded LineBreak IsStatement) more bs ∧
      Newlines back ∧ ss = s :: bs := by
  constructor
  · exact exists_lines _ ls s ss (Nat.lt_succ_self _)
  · rintro ⟨more, bs, back, rfl, hmore, hback, rfl⟩
    induction hmore generalizing s with
    | nil =>
      rw [List.nil_append]
      cases back with
      | nil => exact accepts_nil.mpr ⟨rfl, rfl⟩
      | cons l back =>
        obtain ⟨⟨span, rfl⟩, hrest⟩ := newlines_cons.mp hback
        exact Pending.accepts_closed.mpr
          (.inr ⟨span, back, [], rfl, rfl, accepts_line.mpr (.inl ⟨hrest, rfl⟩)⟩)
    | @cons _ more t bs hfront hmore ih =>
      obtain @⟨_, mid, _, ⟨hne, hbreak⟩, hmid⟩ := hfront
      obtain ⟨l, between, rfl⟩ := List.exists_cons_of_ne_nil hne
      obtain ⟨⟨span, rfl⟩, hbetween⟩ := newlines_cons.mp hbreak
      refine Pending.accepts_closed.mpr (.inr ⟨span, _, t :: bs, by simp; rfl, rfl, ?_⟩)
      exact accepts_line.mpr (.inr ⟨between, mid, t, more ++ back, by simp, hbetween, hmid, ih⟩)

/-- At the start, exactly the programs are accepted. -/
theorem accepts_program : Accepts .blank ls ss ↔ IsProgram ls ss := by
  rw [accepts_line]
  constructor
  · rintro (⟨hls, rfl⟩ | ⟨front, mid, s, rest, rfl, hfront, hmid, h⟩)
    · simpa using IsProgram.mk hls .none newlines_nil
    · obtain ⟨more, bs, back, rfl, hmore, hback, rfl⟩ := accepts_lines.mp h
      have hprogram := IsProgram.mk hfront (.some (.mk hmid hmore)) hback
      simpa using hprogram
  · rintro ⟨hfront, hmid, hback⟩
    cases hmid with
    | none => exact .inl ⟨by simpa using Newlines.append hfront hback, rfl⟩
    | some hmid =>
      obtain ⟨hmid, hmore⟩ := hmid
      refine .inr ⟨_, _, _, _, by simp; rfl, hfront, hmid, ?_⟩
      exact accepts_lines.mpr ⟨_, _, _, rfl, hmore, hback, rfl⟩

end TensorIR
