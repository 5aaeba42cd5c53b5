import TensorIR.Proofs.Source.Boundaries
import TensorIR.Proofs.Source.Sentences

/-!
# Where the parts of a program stand

Tokens stand in the source one after the other, and skipped text and bad stretches between them take
nothing away from that (`inOrder_scan`). Each part of a program is made of tokens that follow one
another, and its span goes from the start of the first to the end of the last (`Span.OfTokens`).

So the grammar tells how spans lie. The parts of a phrase are made of separate pieces of its tokens,
in order (`Along`): their spans lie apart, in order (`Along.ordered`), and within the phrase's own
(`Span.OfTokens.within`). Every span in a program is a stretch of its source
(`stretch_of_place`), and that of a name is where the name is spelled.
-/

set_option autoImplicit false

namespace TensorIR

open Grammar

/-! ## The places in a program -/

/-- The one ends before the other starts. -/
def Span.Precedes (a b : Span) : Prop := a.stop ≤ b.start

/-- The one lies inside the other. -/
structure Span.Within (inner outer : Span) : Prop where
  start : outer.start ≤ inner.start
  stop : inner.stop ≤ outer.stop

/-- Where the dimension stands. -/
def DimLiteral.span : DimLiteral → Span
  | .fixed _ span | .dynamic span => span

/-- Where the dimensions in the value stand. -/
def AttrValue.items : AttrValue → List Span
  | .dims literals _ => literals.map DimLiteral.span
  | _ => []

/-- The name that the value is. -/
def AttrValue.ident? : AttrValue → Option Ident
  | .ident name => some name
  | _ => none

namespace Attr

/-- Where the name and the value stand. -/
def parts (a : Attr) : List Span := [a.name.span, a.value.span]

/-- The names in the attribute. -/
def idents (a : Attr) : List Ident := a.name :: a.value.ident?.toList

end Attr

namespace Statement

/-- Where the parts of the statement stand, in the order in which they are written. -/
def parts (s : Statement) : List Span :=
  s.result.toList.map Ident.span ++
    s.op.span :: (s.attrs.flatMap Attr.parts ++ s.operands.map fun o => o.name.span)

/-- All places in the statement: its own, those of its parts, and those of dimensions. -/
def places (s : Statement) : List Span :=
  s.span :: (s.parts ++ s.attrs.flatMap fun a => a.value.items)

/-- The names in the statement, but for those of its operands. -/
def idents (s : Statement) : List Ident :=
  s.result.toList ++ s.op :: s.attrs.flatMap Attr.idents

end Statement

/-- All places in the program. -/
def Program.places (p : Program) : List Span := p.span :: p.statements.flatMap Statement.places

/-! ## Tokens in order -/

/-- Tokens that take room, one after the other. -/
structure InOrder (ls : List Lexeme) : Prop where
  nonempty : ∀ l ∈ ls, l.span.start < l.span.stop
  ordered : ls.Pairwise fun l l' => l.span.Precedes l'.span

theorem inOrder_scan (source : List Char) : InOrder (Source.scan source).lexemes where
  nonempty l hl := ((Source.scan_lossless source).tokens l hl).1
  ordered := (Source.scan_lossless source).tokens_ordered

/-- The span goes from the start of the first token to the end of the last. -/
structure Span.OfTokens (span : Span) (ls : List Lexeme) : Prop where
  first : ∃ l, ls.head? = some l ∧ l.span.start = span.start
  last : ∃ l, ls.getLast? = some l ∧ l.span.stop = span.stop

variable {ls ls' seg seg' : List Lexeme} {l : Lexeme} {span span' : Span} {spans spans' : List Span}

theorem ofTokens_singleton (token : Token) (span : Span) : span.OfTokens [⟨token, span⟩] :=
  ⟨⟨⟨token, span⟩, rfl, rfl⟩, ⟨⟨token, span⟩, rfl, rfl⟩⟩

/-- Tokens between two others do not matter to the span of them all. -/
theorem ofTokens_enclosed (first last : Lexeme) (ls : List Lexeme) :
    (⟨first.span.start, last.span.stop⟩ : Span).OfTokens (first :: (ls ++ [last])) where
  first := ⟨first, rfl, rfl⟩
  last := ⟨last, by rw [← List.cons_append, List.getLast?_concat], rfl⟩

theorem ofTokens_coverage (hne : ls ≠ []) (length : Nat) : (coverage ls length).OfTokens ls := by
  have hfirst := List.head?_eq_some_head hne
  have hlast := List.getLast?_eq_some_getLast hne
  rw [coverage, hfirst, hlast]
  exact ⟨⟨_, hfirst, rfl⟩, ⟨_, hlast, rfl⟩⟩

theorem InOrder.piece (h : InOrder ls) (hseg : seg <:+: ls) : InOrder seg where
  nonempty l hl := h.nonempty l (hseg.subset hl)
  ordered := h.ordered.sublist hseg.sublist

theorem InOrder.within (h : InOrder ls) (hspan : span.OfTokens ls) (hl : l ∈ ls) :
    l.span.Within span where
  start := by
    obtain ⟨first, hfirst, hstart⟩ := hspan.first
    obtain ⟨rest, rfl⟩ := List.head?_eq_some_iff.mp hfirst
    rcases List.mem_cons.mp hl with rfl | hrest
    · exact hstart.ge
    · have hpos := h.nonempty first List.mem_cons_self
      have hle : first.span.stop ≤ l.span.start := (List.pairwise_cons.mp h.ordered).1 l hrest
      omega
  stop := by
    obtain ⟨last, hlast, hstop⟩ := hspan.last
    obtain ⟨front, rfl⟩ := List.getLast?_eq_some_iff.mp hlast
    rcases List.mem_append.mp hl with hfront | hlast
    · have hpos := h.nonempty last List.mem_concat_self
      have hle : l.span.stop ≤ last.span.start :=
        (List.pairwise_append.mp h.ordered).2.2 l hfront last (List.mem_singleton_self last)
      omega
    · obtain rfl := List.mem_singleton.mp hlast
      exact hstop.le

namespace Span.OfTokens

theorem exists_mem (h : span.OfTokens ls) :
    ∃ first ∈ ls, ∃ last ∈ ls, first.span.start = span.start ∧ last.span.stop = span.stop := by
  obtain ⟨⟨first, hfirst, hstart⟩, ⟨last, hlast, hstop⟩⟩ := h
  exact ⟨first, List.mem_of_head? hfirst, last, List.mem_of_getLast? hlast, hstart, hstop⟩

/-- The span of some of the tokens of a phrase lies inside the phrase's own. -/
theorem within (h : span.OfTokens ls) (hls : InOrder ls) (h' : span'.OfTokens seg)
    (hseg : seg <:+: ls) : span'.Within span := by
  obtain ⟨first, hfirst, last, hlast, hstart, hstop⟩ := h'.exists_mem
  have hwithin := hls.within h (hseg.subset hfirst)
  have hwithin' := hls.within h (hseg.subset hlast)
  exact ⟨hstart ▸ hwithin.start, hstop ▸ hwithin'.stop⟩

theorem lt (h : span.OfTokens ls) (hls : InOrder ls) : span.start < span.stop := by
  obtain ⟨first, hfirst, -, -, hstart, -⟩ := h.exists_mem
  have hpos := hls.nonempty first hfirst
  have hwithin := (hls.within h hfirst).stop
  omega

theorem precedes (h : span.OfTokens seg) (h' : span'.OfTokens seg')
    (hbetween : ∀ l ∈ seg, ∀ l' ∈ seg', l.span.Precedes l'.span) : span.Precedes span' := by
  obtain ⟨-, -, last, hlast, -, hstop⟩ := h.exists_mem
  obtain ⟨first, hfirst, -, -, hstart, -⟩ := h'.exists_mem
  have hle := hbetween last hlast first hfirst
  rwa [Span.Precedes, hstop, hstart] at hle

end Span.OfTokens

/-! ## Spans along tokens -/

/-- The spans are those of separate pieces of the tokens, in order. -/
inductive Along : List Lexeme → List Span → Prop
  | nil (ls : List Lexeme) : Along ls []
  | cons (gap : List Lexeme) {seg rest : List Lexeme} {span : Span} {spans : List Span}
    (h : span.OfTokens seg) (hrest : Along rest spans) :
    Along (gap ++ (seg ++ rest)) (span :: spans)

namespace Along

theorem single (h : span.OfTokens ls) : Along ls [span] := by
  have := cons [] h (nil [])
  rwa [List.nil_append, List.append_nil] at this

theorem prepend (front : List Lexeme) (h : Along ls spans) : Along (front ++ ls) spans := by
  cases h with
  | nil => exact nil _
  | cons gap h hrest =>
    rw [← List.append_assoc]
    exact cons _ h hrest

theorem extend (back : List Lexeme) (h : Along ls spans) : Along (ls ++ back) spans := by
  induction h with
  | nil ls => exact nil _
  | cons gap h _ ih =>
    rw [List.append_assoc, List.append_assoc]
    exact cons gap h ih

theorem append (h : Along ls spans) (h' : Along ls' spans') :
    Along (ls ++ ls') (spans ++ spans') := by
  induction h with
  | nil ls => exact h'.prepend ls
  | cons gap h _ ih =>
    rw [List.append_assoc, List.append_assoc]
    exact cons gap h ih

theorem exists_tokens (h : Along ls spans) (hspan : span ∈ spans) :
    ∃ seg, seg <:+: ls ∧ span.OfTokens seg := by
  induction h with
  | nil => cases hspan
  | cons gap h _ ih =>
    rcases List.mem_cons.mp hspan with rfl | hspan
    · exact ⟨_, ⟨gap, _, List.append_assoc ..⟩, h⟩
    · obtain ⟨seg, hseg, hof⟩ := ih hspan
      exact ⟨seg, hseg.trans ((List.suffix_append ..).trans (List.suffix_append ..)).isInfix, hof⟩

theorem ordered (h : Along ls spans) (hls : InOrder ls) : spans.Pairwise Span.Precedes := by
  induction h with
  | nil => exact .nil
  | cons gap h hrest ih =>
    have htokens := hls.piece (List.suffix_append gap _).isInfix
    refine List.Pairwise.cons (fun span' hspan' => ?_)
      (ih (htokens.piece (List.suffix_append ..).isInfix))
    obtain ⟨seg', hseg', h'⟩ := hrest.exists_tokens hspan'
    exact h.precedes h' fun l hl l' hl' =>
      (List.pairwise_append.mp htokens.ordered).2.2 l hl l' (hseg'.subset hl')

end Along

/-! ## The spans of phrases -/

namespace Grammar

section Operators

variable {α : Type} {sep : List Lexeme → Prop} {phrase : List Lexeme → α → Prop}
  {phrases : List Lexeme → List α → Prop} {a : α} {as : List α} {marks : α → List Span}

/-- If each phrase has spans along its tokens, so has a list of phrases. -/
theorem along_repeated (hphrase : ∀ ls a, phrase ls a → Along ls (marks a))
    (h : Repeated phrase ls as) : Along ls (as.flatMap marks) := by
  induction h with
  | nil => exact .nil []
  | cons h _ ih =>
    rw [List.flatMap_cons]
    exact (hphrase _ _ h).append ih

theorem along_separated (hphrase : ∀ ls a, phrase ls a → Along ls (marks a))
    (h : Separated sep phrase ls as) : Along ls (as.flatMap marks) := by
  obtain ⟨h, hrest⟩ := h
  rw [List.flatMap_cons]
  refine (hphrase _ _ h).append (along_repeated ?_ hrest)
  rintro _ _ ⟨-, h⟩
  exact (hphrase _ _ h).prepend _

theorem along_optional (hphrases : ∀ ls as, phrases ls as → Along ls (as.flatMap marks))
    (h : Optional phrases ls as) : Along ls (as.flatMap marks) := by
  cases h with
  | none => exact .nil []
  | some h => exact hphrases _ _ h

theorem Repeated.exists_of_mem (h : Repeated phrase ls as) (ha : a ∈ as) :
    ∃ seg, seg <:+: ls ∧ phrase seg a := by
  induction h with
  | nil => cases ha
  | cons h _ ih =>
    rcases List.mem_cons.mp ha with rfl | ha
    · exact ⟨_, (List.prefix_append ..).isInfix, h⟩
    · obtain ⟨seg, hseg, h⟩ := ih ha
      exact ⟨seg, hseg.trans (List.suffix_append ..).isInfix, h⟩

theorem Separated.exists_of_mem (h : Separated sep phrase ls as) (ha : a ∈ as) :
    ∃ seg, seg <:+: ls ∧ phrase seg a := by
  obtain ⟨h, hrest⟩ := h
  rcases List.mem_cons.mp ha with rfl | ha
  · exact ⟨_, (List.prefix_append ..).isInfix, h⟩
  · obtain ⟨_, hseg, ⟨-, h⟩⟩ := hrest.exists_of_mem ha
    exact ⟨_, (List.suffix_append ..).isInfix.trans
      (hseg.trans (List.suffix_append ..).isInfix), h⟩

/-- Tokens of which some are a phrase, some later ones a phrase, and some before it a separator. -/
def Across (sep : List Lexeme → Prop) (phrase : List Lexeme → α → Prop) (ls : List Lexeme)
    (a b : α) : Prop :=
  ∃ seg gap between seg', seg ++ (gap ++ (between ++ seg')) <:+: ls ∧ phrase seg a ∧
    sep between ∧ phrase seg' b

theorem Across.mono {b : α} (h : Across sep phrase ls a b) (hls : ls <:+: ls') :
    Across sep phrase ls' a b := by
  obtain ⟨seg, gap, between, seg', hseg, h⟩ := h
  exact ⟨seg, gap, between, seg', hseg.trans hls, h⟩

theorem Repeated.across_of_mem {b : α} (h : Repeated (Preceded sep phrase) ls as)
    (hseg : phrase seg a) (hb : b ∈ as) : Across sep phrase (seg ++ ls) a b := by
  obtain ⟨_, ⟨gap, back, rfl⟩, @⟨between, seg', _, hsep, hseg'⟩⟩ := h.exists_of_mem hb
  refine ⟨seg, gap, between, seg', ⟨[], back, ?_⟩, hseg, hsep, hseg'⟩
  simp only [List.nil_append, List.append_assoc]

theorem Repeated.pairwise_across (h : Repeated (Preceded sep phrase) ls as) :
    as.Pairwise (Across sep phrase ls) := by
  induction h with
  | nil => exact .nil
  | cons h hrest ih =>
    obtain ⟨-, hseg⟩ := h
    refine .cons (fun b hb => ?_) (ih.imp fun h => h.mono (List.suffix_append ..).isInfix)
    rw [List.append_assoc]
    exact (hrest.across_of_mem hseg hb).mono (List.suffix_append ..).isInfix

theorem Separated.pairwise_across (h : Separated sep phrase ls as) :
    as.Pairwise (Across sep phrase ls) := by
  obtain ⟨hseg, hrest⟩ := h
  exact .cons (fun b hb => hrest.across_of_mem hseg hb)
    (hrest.pairwise_across.imp fun h => h.mono (List.suffix_append ..).isInfix)

theorem Optional.of_mem (h : Optional phrases ls as) (ha : a ∈ as) : phrases ls as := by
  cases h with
  | none => cases ha
  | some h => exact h

end Operators

variable {d : DimLiteral} {v : AttrValue} {a : Attr} {attrs : List Attr} {o : Operand}
  {result : Option Ident} {s : Statement} {ss : List Statement}

theorem IsDim.ofTokens (h : IsDim ls d) : d.span.OfTokens ls := by
  cases h <;> exact ofTokens_singleton _ _

theorem IsValue.ofTokens (h : IsValue ls v) : v.span.OfTokens ls := by
  cases h with
  | dims l r h => exact ofTokens_enclosed ⟨.leftBracket, l⟩ ⟨.rightBracket, r⟩ _
  | _ => exact ofTokens_singleton _ _

theorem IsValue.along (h : IsValue ls v) : Along ls v.items := by
  cases h with
  | dims l r h =>
    rw [AttrValue.items, List.map_eq_flatMap]
    exact ((along_optional (fun _ _ => along_separated fun _ _ h => .single h.ofTokens) h).extend
      [⟨.rightBracket, r⟩]).prepend [⟨.leftBracket, l⟩]
  | _ => exact .nil _

theorem IsAttr.along (h : IsAttr ls a) : Along ls a.parts := by
  obtain ⟨name, span, equals, h⟩ := h
  exact (Along.single (ofTokens_singleton (.ident name) span)).append
    ((Along.single h.ofTokens).prepend [⟨.equals, equals⟩])

theorem IsAttrs.along (h : IsAttrs ls attrs) : Along ls (attrs.flatMap Attr.parts) := by
  obtain ⟨l, r, h⟩ := h
  exact ((along_separated (fun _ _ h => h.along) h).extend [⟨.rightBracket, r⟩]).prepend
    [⟨.leftBracket, l⟩]

theorem IsOperand.ofTokens (h : IsOperand ls o) : o.name.span.OfTokens ls := by
  obtain ⟨name, span, h⟩ := h
  obtain rfl := Operand.spells_iff.mp h
  rw [Operand.span_ofIdent]
  exact ofTokens_singleton _ _

theorem IsBinding.along (h : IsBinding ls result) :
    Along ls (result.toList.map Ident.span) := by
  cases h with
  | none => exact .nil []
  | some name span equals =>
    exact (Along.single (ofTokens_singleton (.ident name) span)).extend [⟨.equals, equals⟩]

theorem IsStatement.along (h : IsStatement ls s) : Along ls s.parts := by
  obtain ⟨op, span, l, r, hbinding, hattrs, hoperands⟩ := h
  refine hbinding.along.append (Along.append (.single (ofTokens_singleton (.ident op) span)) ?_)
  refine (along_optional (fun _ _ h => h.along) hattrs).append ?_
  rw [List.map_eq_flatMap]
  exact ((along_optional (fun _ _ => along_separated fun _ _ h => .single h.ofTokens)
    hoperands).extend [⟨.rightParen, r⟩]).prepend [⟨.leftParen, l⟩]

/-- A statement ends with its closing parenthesis. -/
theorem IsStatement.exists_close (h : IsStatement ls s) :
    ∃ close, ls.getLast? = some close ∧ close.token = .rightParen ∧
      close.span.stop = s.span.stop := by
  obtain @⟨bs, as, os, _, _, _, op, span, l, r, -, -, -⟩ := h
  refine ⟨⟨.rightParen, r⟩, List.getLast?_eq_some_iff.mpr ?_, rfl, rfl⟩
  exact ⟨bs ++ ⟨.ident op, span⟩ :: (as ++ ⟨.leftParen, l⟩ :: os), by simp⟩

theorem IsStatement.ofTokens (h : IsStatement ls s) : s.span.OfTokens ls where
  first := by
    obtain ⟨op, span, l, r, hbinding, -, -⟩ := h
    cases hbinding <;> exact ⟨_, rfl, rfl⟩
  last := by
    obtain ⟨close, hlast, -, hstop⟩ := h.exists_close
    exact ⟨close, hlast, hstop⟩

theorem IsProgram.along (h : IsProgram ls ss) : Along ls (ss.map Statement.span) := by
  obtain ⟨-, h, -⟩ := h
  rw [List.map_eq_flatMap]
  exact ((along_optional (fun _ _ => along_separated fun _ _ h => .single h.ofTokens) h).prepend
    _).extend _

/-! ## What stands in the places -/

theorem IsAttr.mem_of_ident (h : IsAttr ls a) {id : Ident} (hid : id ∈ a.idents) :
    ⟨.ident id.name, id.span⟩ ∈ ls := by
  obtain ⟨name, span, equals, h⟩ := h
  rcases List.mem_cons.mp hid with rfl | hid
  · exact List.mem_cons_self
  · cases h with
    | ident value span =>
      obtain rfl := List.mem_singleton.mp hid
      simp
    | _ => cases hid

theorem IsAttr.exists_value (h : IsAttr ls a) : ∃ seg, seg <:+: ls ∧ IsValue seg a.value := by
  obtain ⟨name, span, equals, h⟩ := h
  exact ⟨_, (List.suffix_append [_, _] _).isInfix, h⟩

theorem IsBinding.mem_of_ident (h : IsBinding ls result) {id : Ident} (hid : id ∈ result.toList) :
    ⟨.ident id.name, id.span⟩ ∈ ls := by
  cases h with
  | none => cases hid
  | some name span equals =>
    obtain rfl := List.mem_singleton.mp hid
    exact List.mem_cons_self

theorem IsStatement.exists_attr (h : IsStatement ls s) (ha : a ∈ s.attrs) :
    ∃ seg, seg <:+: ls ∧ IsAttr seg a := by
  obtain @⟨bs, as, os, _, _, _, op, span, l, r, -, hattrs, -⟩ := h
  obtain ⟨left, right, hattrs⟩ := hattrs.of_mem ha
  obtain ⟨seg, hseg, h⟩ := hattrs.exists_of_mem ha
  refine ⟨seg, hseg.trans ⟨bs ++ [⟨.ident op, span⟩, ⟨.leftBracket, left⟩],
    ⟨.rightBracket, right⟩ :: ⟨.leftParen, l⟩ :: (os ++ [⟨.rightParen, r⟩]), ?_⟩, h⟩
  simp

theorem IsStatement.exists_operand (h : IsStatement ls s) (ho : o ∈ s.operands) :
    ∃ id, Operand.Spells id o ∧ ⟨.ident id.name, id.span⟩ ∈ ls := by
  obtain ⟨op, span, l, r, -, -, hoperands⟩ := h
  obtain ⟨seg, hseg, ⟨name, span, h⟩⟩ := (hoperands.of_mem ho).exists_of_mem ho
  exact ⟨⟨name, span⟩, h, by simp [hseg.subset (List.mem_singleton_self _)]⟩

theorem IsStatement.mem_of_ident (h : IsStatement ls s) {id : Ident} (hid : id ∈ s.idents) :
    ⟨.ident id.name, id.span⟩ ∈ ls := by
  rcases List.mem_append.mp hid with hresult | hid
  · obtain ⟨op, span, l, r, hbinding, -, -⟩ := h
    exact List.mem_append_left _ (hbinding.mem_of_ident hresult)
  rcases List.mem_cons.mp hid with rfl | hid
  · obtain ⟨op, span, l, r, -, -, -⟩ := h
    exact List.mem_append_right _ List.mem_cons_self
  · obtain ⟨a, ha, hid⟩ := List.mem_flatMap.mp hid
    obtain ⟨seg, hseg, hattr⟩ := h.exists_attr ha
    exact hseg.subset (hattr.mem_of_ident hid)

/-- Every place in a statement is that of some of its tokens. -/
theorem IsStatement.exists_tokens (h : IsStatement ls s) (hspan : span ∈ s.places) :
    ∃ seg, seg <:+: ls ∧ span.OfTokens seg := by
  rcases List.mem_cons.mp hspan with rfl | hspan
  · exact ⟨ls, List.infix_rfl, h.ofTokens⟩
  rcases List.mem_append.mp hspan with hpart | hitem
  · exact h.along.exists_tokens hpart
  · obtain ⟨a, ha, hitem⟩ := List.mem_flatMap.mp hitem
    obtain ⟨seg, hseg, hattr⟩ := h.exists_attr ha
    obtain ⟨seg', hseg', hvalue⟩ := hattr.exists_value
    obtain ⟨seg'', hseg'', hof⟩ := hvalue.along.exists_tokens hitem
    exact ⟨seg'', hseg''.trans (hseg'.trans hseg), hof⟩

theorem IsProgram.exists_statement (h : IsProgram ls ss) (hs : s ∈ ss) :
    ∃ seg, seg <:+: ls ∧ IsStatement seg s := by
  obtain ⟨-, h, -⟩ := h
  obtain ⟨seg, hseg, h⟩ := (h.of_mem hs).exists_of_mem hs
  exact ⟨seg, hseg.trans (List.infix_append ..), h⟩

/-- Between two statements of a program there is a newline. -/
theorem IsProgram.pairwise_across (h : IsProgram ls ss) :
    ss.Pairwise (Across LineBreak IsStatement ls) := by
  obtain ⟨-, h, -⟩ := h
  cases h with
  | none => exact .nil
  | some h => exact h.pairwise_across.imp fun h => h.mono (List.infix_append ..)

end Grammar

/-! ## Tokens in the source -/

namespace Source

variable {source : List Char}

theorem stretch_lexeme (hl : l ∈ (scan source).lexemes) : Stretch source l.span := by
  obtain ⟨-, _, _, _, hstands, -⟩ := (scan_lossless source).tokens l hl
  exact hstands.stretch

/-- Tokens that follow one another have a stretch of the source. -/
theorem stretch_of_tokens (hseg : seg <:+: (scan source).lexemes) (h : span.OfTokens seg) :
    Stretch source span := by
  obtain ⟨first, hfirst, last, hlast, hstart, hstop⟩ := h.exists_mem
  have hlt := h.lt ((inOrder_scan source).piece hseg)
  exact ⟨hlt.le, hstart ▸ (stretch_lexeme (hseg.subset hfirst)).start,
    hstop ▸ (stretch_lexeme (hseg.subset hlast)).stop⟩

theorem newline_of_mem (hl : l ∈ (scan source).lexemes) (hnewline : l.token = .newline) :
    ∃ before after, source = before ++ '\n' :: after ∧ byteLength before = l.span.start := by
  obtain ⟨-, before, text, after, hstands, hrecognized, -⟩ := (scan_lossless source).tokens l hl
  have hpattern := hrecognized.pattern
  rw [hnewline] at hpattern
  obtain ⟨hne, hall⟩ := Pattern.mem_run_iff.mp hpattern
  obtain ⟨c, text, rfl⟩ := List.exists_cons_of_ne_nil hne
  obtain rfl : c = '\n' := of_decide_eq_true (hall c List.mem_cons_self)
  refine ⟨before, text ++ after, ?_, hstands.start.symm⟩
  rw [hstands.source_eq, List.append_assoc, List.cons_append]

/-- There is no sign in the text of a name. -/
theorem plus_notMem_ident (hl : l ∈ (scan source).lexemes) {name : String}
    (hname : l.token = .ident name) : '+' ∉ name.toList := by
  obtain ⟨-, before, text, after, -, hrecognized, -⟩ := (scan_lossless source).tokens l hl
  have hpattern := hrecognized.pattern
  have hmeans := hrecognized.means
  rw [hname] at hpattern hmeans
  obtain rfl : name.toList = text := hmeans
  intro hmem
  obtain ⟨c, rest, htext⟩ := List.exists_cons_of_ne_nil (List.ne_nil_of_mem hmem)
  rw [htext] at hpattern hmem
  obtain ⟨hstart, hrest⟩ := Pattern.cons_mem_one_mul_iff.mp hpattern
  rcases List.mem_cons.mp hmem with rfl | hmem
  · exact absurd hstart (by decide)
  · exact absurd (Pattern.mem_star_iff.mp hrest _ hmem) (by decide)

end Source

/-- The text is the name of the operand, for the first output, or its name, a point and the number
of the output in decimal. -/
def Operand.WrittenAs (o : Operand) (text : List Char) : Prop :=
  (text = o.name.name.toList ∧ o.port = 0) ∨
    ∃ digits, text = o.name.name.toList ++ '.' :: digits ∧ Numeral.readNat? digits = some o.port

theorem Operand.Spells.writtenAs {id : Ident} {o : Operand} (h : Operand.Spells id o)
    (hplus : '+' ∉ id.name.toList) : o.WrittenAs id.name.toList := by
  cases h with
  | plain h => exact .inl ⟨rfl, rfl⟩
  | numbered h =>
    obtain ⟨-, digits, hname, hport⟩ := h
    refine .inr ⟨digits, by rw [hname, String.toList_ofList], ?_⟩
    obtain ⟨hmagnitude, -⟩ := Option.filter_eq_some_iff.mp hport
    split at hmagnitude
    next rest => exact absurd (hname ▸ by simp) hplus
    next => exact hmagnitude

/-! ## Programs in their sources -/

variable {source : List Char} {p : Program} {s : Statement}

/-- The spans in a statement say where its parts stand in the source. -/
structure Statement.Exact (source : List Char) (s : Statement) : Prop where
  /-- The statement goes from the first of its tokens to its closing parenthesis. -/
  tokens : ∃ ls, ls <:+: (Source.scan source).lexemes ∧ IsStatement ls s ∧ s.span.OfTokens ls ∧
    ∃ close, ls.getLast? = some close ∧ close.token = .rightParen ∧ close.span.stop = s.span.stop
  within : ∀ span ∈ s.places, span.start < span.stop ∧ span.Within s.span
  parts_ordered : s.parts.Pairwise Span.Precedes
  items : ∀ a ∈ s.attrs, a.value.items.Pairwise Span.Precedes ∧
    ∀ span ∈ a.value.items, span.Within a.value.span
  names : ∀ id ∈ s.idents, Source.text? source id.span = some id.name.toList
  operands : ∀ o ∈ s.operands, ∃ text, Source.text? source o.name.span = some text ∧
    o.WrittenAs text

/-- The spans in a program say where its parts stand in the source. -/
structure Program.Exact (source : List Char) (p : Program) : Prop where
  statements : ∀ s ∈ p.statements, s.Exact source
  statements_ordered : (p.statements.map Statement.span).Pairwise Span.Precedes
  /-- There is a newline between any two statements. -/
  separated : p.statements.Pairwise fun s t => ∃ before after, source = before ++ '\n' :: after ∧
    s.span.stop ≤ Source.byteLength before ∧ Source.byteLength before < t.span.start
  covered : ∀ s ∈ p.statements, s.span.Within p.span
  ordered : p.span.start ≤ p.span.stop
  inSource : p.span.stop ≤ Source.byteLength source

theorem Statement.exact_of_tokens (hls : ls <:+: (Source.scan source).lexemes)
    (h : IsStatement ls s) : s.Exact source where
  tokens := ⟨ls, hls, h, h.ofTokens, h.exists_close⟩
  within := by
    intro span hspan
    have horder := (inOrder_scan source).piece hls
    obtain ⟨seg, hseg, hof⟩ := h.exists_tokens hspan
    exact ⟨hof.lt (horder.piece hseg), h.ofTokens.within horder hof hseg⟩
  parts_ordered := h.along.ordered ((inOrder_scan source).piece hls)
  items := by
    intro a ha
    obtain ⟨seg, hseg, hattr⟩ := h.exists_attr ha
    obtain ⟨seg', hseg', hvalue⟩ := hattr.exists_value
    have horder := (inOrder_scan source).piece ((hseg'.trans hseg).trans hls)
    refine ⟨hvalue.along.ordered horder, fun span hspan => ?_⟩
    obtain ⟨_, hsub, hof⟩ := hvalue.along.exists_tokens hspan
    exact hvalue.ofTokens.within horder hof hsub
  names id hid := (Source.text?_ident (hls.subset (h.mem_of_ident hid)) rfl).1
  operands := by
    intro o ho
    obtain ⟨id, hspells, hmem⟩ := h.exists_operand ho
    obtain rfl := Operand.spells_iff.mp hspells
    have htext := (Source.text?_ident (hls.subset hmem) rfl).1
    rw [← Operand.span_ofIdent id] at htext
    exact ⟨_, htext, hspells.writtenAs (Source.plus_notMem_ident (hls.subset hmem) rfl)⟩

/-- A newline among tokens lies between the spans of the tokens on its two sides. -/
theorem exists_newline_between {t : Statement}
    (h : Across LineBreak IsStatement (Source.scan source).lexemes s t) :
    ∃ before after, source = before ++ '\n' :: after ∧
      s.span.stop ≤ Source.byteLength before ∧ Source.byteLength before < t.span.start := by
  obtain ⟨seg, gap, between, seg', hsub, hs, ⟨hne, hnewlines⟩, ht⟩ := h
  obtain ⟨l, hl⟩ := List.exists_mem_of_ne_nil between hne
  have horder := (inOrder_scan source).piece hsub
  have hmem : l ∈ seg ++ (gap ++ (between ++ seg')) := by simp [hl]
  obtain ⟨before, after, hsource, hbefore⟩ :=
    Source.newline_of_mem (hsub.subset hmem) (hnewlines l hl)
  have hpos := horder.nonempty l hmem
  have hleft : s.span.Precedes l.span := by
    refine hs.ofTokens.precedes (ofTokens_singleton l.token l.span) fun x hx l' hl' => ?_
    obtain rfl := List.mem_singleton.mp hl'
    exact (List.pairwise_append.mp horder.ordered).2.2 x hx _ (by simp [hl])
  have hright : l.span.Precedes t.span := by
    refine (ofTokens_singleton l.token l.span).precedes ht.ofTokens fun l' hl' x hx => ?_
    obtain rfl := List.mem_singleton.mp hl'
    have htail := horder.piece
      ((List.suffix_append gap _).trans (List.suffix_append seg _)).isInfix
    exact (List.pairwise_append.mp htail.ordered).2.2 _ hl x hx
  refine ⟨before, after, hsource, hbefore ▸ hleft, ?_⟩
  rw [hbefore]
  exact Nat.lt_of_lt_of_le hpos hright

/-- The span of a program that is read goes from its first token to its last, and with no token it
is at the end of the source. -/
theorem span_parse (h : (parse source).program = some p) :
    p.span.OfTokens (Source.scan source).lexemes ∨
      (Source.scan source).lexemes = [] ∧
        p.span = ⟨Source.byteLength source, Source.byteLength source⟩ := by
  rw [((program_parse_eq_some_iff source p).mp h).2]
  by_cases hne : (Source.scan source).lexemes = []
  · exact .inr ⟨hne, by rw [hne]; rfl⟩
  · exact .inl (ofTokens_coverage hne _)

theorem stretch_span_parse (h : (parse source).program = some p) :
    Source.Stretch source p.span := by
  rcases span_parse h with hof | ⟨-, hspan⟩
  · exact Source.stretch_of_tokens List.infix_rfl hof
  · rw [hspan]
    exact Source.stretch_end source

theorem exact_parse (h : (parse source).program = some p) : p.Exact source := by
  have hprogram := accepts_program.mp ((program_parse_eq_some_iff source p).mp h).1
  have hstretch := stretch_span_parse h
  exact {
    statements := fun s hs => by
      obtain ⟨ls, hls, hstatement⟩ := hprogram.exists_statement hs
      exact Statement.exact_of_tokens hls hstatement
    statements_ordered := hprogram.along.ordered (inOrder_scan source)
    separated := hprogram.pairwise_across.imp exists_newline_between
    covered := fun s hs => by
      obtain ⟨ls, hls, hstatement⟩ := hprogram.exists_statement hs
      rcases span_parse h with hof | ⟨hnil, -⟩
      · exact hof.within (inOrder_scan source) hstatement.ofTokens hls
      · obtain ⟨first, hfirst, -⟩ := hstatement.ofTokens.exists_mem
        exact absurd (hls.subset hfirst) (hnil ▸ List.not_mem_nil)
    ordered := hstretch.ordered
    inSource := hstretch.stop.le }

/-- Every span in a program that is read is a stretch of its source. -/
theorem stretch_of_place (h : (parse source).program = some p) {span : Span}
    (hspan : span ∈ p.places) : Source.Stretch source span := by
  rcases List.mem_cons.mp hspan with rfl | hspan
  · exact stretch_span_parse h
  · obtain ⟨s, hs, hspan⟩ := List.mem_flatMap.mp hspan
    have hprogram := accepts_program.mp ((program_parse_eq_some_iff source p).mp h).1
    obtain ⟨ls, hls, hstatement⟩ := hprogram.exists_statement hs
    obtain ⟨seg, hseg, hof⟩ := hstatement.exists_tokens hspan
    exact Source.stretch_of_tokens (hseg.trans hls) hof

end TensorIR
