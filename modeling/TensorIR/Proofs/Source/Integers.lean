import TensorIR.Dim
import TensorIR.Proofs.Source.Reading
import TensorIR.Proofs.Source.Scanning

/-!
# The integers of a program

Every integer of a program is one of its text: a value of an attribute or a dimension in a list,
each from a token of its own (`areTokens_of_parse`). Integers of a text are signed words, and
the word for a dynamic dimension is larger than any of them (`ofCode_ne_dynamic_of_token`).
-/

set_option autoImplicit false

namespace TensorIR

/-! ## Integers and tokens -/

/-- The integers that a token is, of which there is at most one. -/
def Token.ints : Token → List Int
  | .int n => [n]
  | _ => []

/-- The integers that a dimension is written with. -/
def DimLiteral.ints : DimLiteral → List Int
  | .fixed n _ => [n]
  | .dynamic _ => []

/-- The integers that a value is written with. -/
def AttrValue.ints : AttrValue → List Int
  | .int n _ => [n]
  | .dims items _ => items.flatMap DimLiteral.ints
  | .float _ _ | .ident _ | .dynamic _ => []

/-- The integers in attributes. -/
def Attr.intsOf (attrs : List Attr) : List Int := attrs.flatMap fun a => a.value.ints

namespace Pending

variable {p next : Pending} {l : Lexeme}

/-- The integers in the attributes of the current statement so far. -/
def ints : Pending → List Int
  | .blank | .named _ | .bound _ | .headed _ => []
  | .attrStart _ attrs | .attrNamed _ attrs _ | .attrOpen _ attrs _ | .attrDone _ attrs
  | .attrsDone _ attrs | .dimsOpen _ attrs _ _ | .operandsOpen _ attrs | .operandDone _ attrs _
  | .operandNext _ attrs _ => Attr.intsOf attrs
  | .dimDone _ attrs _ _ dims | .dimNext _ attrs _ _ dims =>
    Attr.intsOf attrs ++ dims.flatMap DimLiteral.ints
  | .closed s => Attr.intsOf s.attrs

/-- A token adds no integer but its own. One case for each token that may come at a position. -/
theorem step_ints (h : p.step l = some next) : next.ints ⊆ p.ints ++ l.token.ints := by
  unfold step at h
  split at h <;> cases h
  all_goals simp [ints, Attr.intsOf, AttrValue.ints, Token.ints, DimLiteral.ints,
    Heading.statement, *]

theorem ints_finished {s : Statement} (hs : s ∈ p.finished) : Attr.intsOf s.attrs = p.ints := by
  cases p with
  | closed t =>
    obtain rfl := List.mem_singleton.mp hs
    rfl
  | _ => cases hs

end Pending

/-! ## Integers of a text -/

variable {source : List Char} {program : Program} {s : Statement} {l : Lexeme} {n : Int}

/-- Each of the integers is a token. -/
def AreTokens (ls : List Lexeme) (ns : List Int) : Prop :=
  ∀ n ∈ ns, ∃ l ∈ ls, l.token = .int n

theorem AreTokens.step {p next : Pending} {all : List Lexeme} (hp : AreTokens all p.ints)
    (hl : l ∈ all) (h : p.step l = some next) : AreTokens all next.ints := by
  intro n hn
  rcases List.mem_append.mp (Pending.step_ints h hn) with hn | hn
  · exact hp n hn
  · unfold Token.ints at hn
    split at hn
    next m hm =>
      obtain rfl := List.mem_singleton.mp hn
      exact ⟨l, hl, hm⟩
    next => cases hn

theorem areTokens_readFrom {done out : List Statement} {p : Pending} {ls all : List Lexeme}
    (h : readFrom done p ls = .ok out) (hsub : ∀ l ∈ ls, l ∈ all)
    (hdone : ∀ s ∈ done, AreTokens all (Attr.intsOf s.attrs)) (hp : AreTokens all p.ints) :
    ∀ s ∈ out, AreTokens all (Attr.intsOf s.attrs) :=
  forall_readFrom (fun _ hl _ _ hnext hp => AreTokens.step hp hl hnext)
    (fun _ hp _ hs => by rw [Pending.ints_finished hs]; exact hp) h hsub hdone hp

/-- The integers of a program are tokens of its text. -/
theorem areTokens_of_parse (h : (parse source).program = some program)
    (hs : s ∈ program.statements) :
    AreTokens (Source.scan source).lexemes (Attr.intsOf s.attrs) :=
  areTokens_readFrom (readStatements_of_parse h) (fun _ hl => hl) (by simp)
    (fun n hn => by cases hn) s hs

theorem fitsWord_of_token (hl : l ∈ (Source.scan source).lexemes) (hn : l.token = .int n) :
    Source.FitsWord n := by
  obtain ⟨p, hp, hreading⟩ := Source.mem_lexemes_scan hl
  obtain ⟨-, -, before, after, -, hholds⟩ := Source.holds_of_placed hp
  rw [hreading, hn] at hholds
  exact hholds.means.2

/-- No integer of a text is the word for a dynamic dimension. -/
theorem ofCode_ne_dynamic_of_token (hl : l ∈ (Source.scan source).lexemes)
    (hn : l.token = .int n) : Dim.ofCode n.toNat ≠ .dynamic := by
  have hfits := (fitsWord_of_token hl hn).2
  have hlt : n.toNat < dynamicCode := by
    simp only [Numeral.signedBound] at hfits
    simp only [dynamicCode]
    omega
  rw [Dim.ofCode, dif_pos hlt]
  exact Dim.noConfusion

end TensorIR
