import Mathlib.Data.List.DropRight
import TensorIR.Text.Blank

/-!
# Trimming

A text is trimmed at both ends, and it does not matter at which end first (`dropWhile_rdropWhile`).
So what is left can be worked out for each end on its own: white space around a text does not
change its trimming (`trim_append`), and brackets of one kind at one end go with the white space on
either side of them (`dropWhile_brackets`, `rdropWhile_brackets`).
-/

set_option autoImplicit false

namespace TensorIR.Blank

/-- There is nothing but white space. -/
def Blanks (cs : List Char) : Prop := ∀ c ∈ cs, isBlank c = true

/-- What is dropped at one end does not depend on what is dropped at the other. -/
theorem dropWhile_rdropWhile (p q : Char → Bool) (cs : List Char) :
    (cs.rdropWhile q).dropWhile p = (cs.dropWhile p).rdropWhile q := by
  induction cs using List.reverseRecOn with
  | nil => rfl
  | append_singleton cs x ih =>
    rw [List.dropWhile_append]
    cases hx : q x with
    | true =>
      rw [List.rdropWhile_concat_pos _ _ _ hx, ih]
      split
      case isTrue hnil =>
        rw [List.isEmpty_iff.mp hnil]
        cases hp : p x <;> simp [hp, hx, List.rdropWhile]
      case isFalse => rw [List.rdropWhile_concat_pos _ _ _ hx]
    | false =>
      have hx' : ¬ q x = true := by simp [hx]
      rw [List.rdropWhile_concat_neg _ _ _ hx', List.dropWhile_append]
      split
      · cases hp : p x <;> simp [hp, hx, List.rdropWhile]
      · rw [List.rdropWhile_concat_neg _ _ _ hx']

theorem trim_eq (cs : List Char) : trim cs = (cs.dropWhile isBlank).rdropWhile isBlank := rfl

theorem blanks_nil : Blanks [] := fun _ hc => absurd hc List.not_mem_nil

theorem Blanks.append {as bs : List Char} (ha : Blanks as) (hb : Blanks bs) : Blanks (as ++ bs) :=
  List.forall_mem_append.mpr ⟨ha, hb⟩

theorem Blanks.not_mem {cs : List Char} (h : Blanks cs) {c : Char} (hc : isBlank c = false) :
    c ∉ cs :=
  fun hmem => Bool.false_ne_true (hc.symm.trans (h c hmem))

theorem exists_trim (cs : List Char) :
    ∃ left right, Blanks left ∧ Blanks right ∧ cs = left ++ trim cs ++ right := by
  refine ⟨cs.takeWhile isBlank, ((cs.dropWhile isBlank).reverse.takeWhile isBlank).reverse,
    fun c hc => List.mem_takeWhile_imp hc,
    fun c hc => List.mem_takeWhile_imp (List.mem_reverse.mp hc), ?_⟩
  rw [trim, List.append_assoc, ← List.reverse_append, List.takeWhile_append_dropWhile,
    List.reverse_reverse, List.takeWhile_append_dropWhile]

theorem trim_append {left right : List Char} (hleft : Blanks left) (hright : Blanks right)
    (cs : List Char) : trim (left ++ cs ++ right) = trim cs := by
  have hreverse : ∀ c ∈ right.reverse, isBlank c = true := by simpa [Blanks] using hright
  rw [trim_eq, List.append_assoc, List.dropWhile_append_of_pos hleft, ← dropWhile_rdropWhile,
    List.rdropWhile, List.reverse_append, List.dropWhile_append_of_pos hreverse]
  exact dropWhile_rdropWhile isBlank isBlank cs

theorem trim_eq_nil_iff {cs : List Char} : trim cs = [] ↔ Blanks cs := by
  constructor
  · intro h
    obtain ⟨left, right, hleft, hright, hcs⟩ := exists_trim cs
    rw [hcs, h, List.append_nil]
    exact hleft.append hright
  · intro h
    rw [trim, List.dropWhile_eq_nil_iff.mpr h]
    rfl

theorem isBlank_of_isDigit {c : Char} (h : c.isDigit = true) : isBlank c = false := by
  have hrange : 48 ≤ c.toNat ∧ c.toNat ≤ 57 := by
    simpa [Char.isDigit, UInt32.le_iff_toNat_le] using h
  simp only [isBlank, Blank.ranges, List.any_cons, List.any_nil, Bool.or_false,
    Bool.or_eq_false_iff, Bool.and_eq_false_iff, decide_eq_false_iff_not]
  omega

/-! ## Brackets at one end -/

theorem exists_replicate_dropWhile (b : Char) (cs : List Char) :
    ∃ n, cs = List.replicate n b ++ cs.dropWhile (· == b) := by
  have hrun : cs.takeWhile (· == b) = List.replicate (cs.takeWhile (· == b)).length b :=
    List.eq_replicate_of_mem fun c hc => by simpa using List.mem_takeWhile_imp hc
  exact ⟨_, by rw [← hrun, List.takeWhile_append_dropWhile]⟩

theorem exists_rdropWhile_replicate (b : Char) (cs : List Char) :
    ∃ n, cs = cs.rdropWhile (· == b) ++ List.replicate n b := by
  obtain ⟨n, hn⟩ := exists_replicate_dropWhile b cs.reverse
  refine ⟨n, ?_⟩
  rw [List.rdropWhile, ← List.reverse_replicate, ← List.reverse_append, ← hn, List.reverse_reverse]

/-- The brackets of one kind at one end, and the white space on either side of them. -/
theorem dropWhile_brackets {left rest : List Char} {b : Char} (n : Nat) (hleft : Blanks left)
    (hb : isBlank b = false) (hrest : b ∉ rest) :
    (((left ++ List.replicate n b ++ rest).dropWhile isBlank).dropWhile
      (· == b)).dropWhile isBlank = rest.dropWhile isBlank := by
  have hfree : ∀ cs : List Char, b ∉ cs → cs.dropWhile (· == b) = cs := by
    rintro (_ | ⟨c, cs⟩) hmem
    · rfl
    · have hc : (c == b) = false :=
        beq_eq_false_iff_ne.mpr fun heq => hmem (heq ▸ List.mem_cons_self)
      simp [hc]
  rw [List.append_assoc, List.dropWhile_append_of_pos hleft]
  cases n with
  | zero =>
    have hdrop : b ∉ rest.dropWhile isBlank := fun hmem =>
      hrest ((List.dropWhile_sublist _).subset hmem)
    rw [List.replicate_zero, List.nil_append, hfree _ hdrop, List.dropWhile_idempotent]
  | succ n =>
    have hstop : (List.replicate (n + 1) b ++ rest).dropWhile isBlank =
        List.replicate (n + 1) b ++ rest := by
      simp [List.replicate_succ, hb]
    have hrun : ∀ c ∈ List.replicate (n + 1) b, (c == b) = true := by
      intro c hc
      rw [List.eq_of_mem_replicate hc, beq_self_eq_true]
    rw [hstop, List.dropWhile_append_of_pos hrun, hfree rest hrest]

theorem rdropWhile_brackets {right rest : List Char} {b : Char} (n : Nat) (hright : Blanks right)
    (hb : isBlank b = false) (hrest : b ∉ rest) :
    (((rest ++ List.replicate n b ++ right).rdropWhile isBlank).rdropWhile
      (· == b)).rdropWhile isBlank = rest.rdropWhile isBlank := by
  have hleft : Blanks right.reverse := by simpa [Blanks] using hright
  have hfree : b ∉ rest.reverse := by simpa using hrest
  have hmirror := dropWhile_brackets n hleft hb hfree
  simp only [List.rdropWhile, List.reverse_reverse, List.reverse_append, List.reverse_replicate,
    ← List.append_assoc, hmirror]

end TensorIR.Blank
