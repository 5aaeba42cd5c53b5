import Mathlib.Data.List.Pairwise
import TensorIR.Proofs.Model.NameErrors
import TensorIR.Proofs.Source.Reading

/-!
# Which attributes are reported as ignored

A statement may have more attributes than its operation is described by, and those are reported, one
warning for each (`Statement.unread`). Whether an attribute plays a part in the description is
another question, and it has an answer that mentions neither warnings nor names: it does if another
value in its place would describe something else (`Statement.DependsOn`).

The two nearly exclude and exhaust each other. Warnings go by names and descriptions by occurrences:
of several attributes of a name that the operation reads only the first counts, and the others are
passed over without a warning. Apart from them every attribute is either needed or reported, and
none is both (`Program.ignored_attributes_exact`).
-/

set_option autoImplicit false

namespace TensorIR

namespace Statement

variable {s : Statement} {op : Op} {i : Nat} {a : Attr}

/-! ## What an operation reads -/

/-- The attributes whose names the operation of the statement does not read. Where no operation is
described, nothing is said of attributes. -/
def unread (s : Statement) : List Attr :=
  match s.op? with
  | .ok op => s.attrs.filter fun a => a.name.name ∉ usedAttrs op
  | .error _ => []

theorem mem_unread_iff (hop : s.op? = .ok op) (ha : a ∈ s.attrs) :
    a ∈ s.unread ↔ a.name.name ∉ usedAttrs op := by
  simp [unread, hop, ha]

theorem unread_sublist (s : Statement) : s.unread.Sublist s.attrs := by
  unfold unread
  split
  · exact List.filter_sublist
  · exact List.nil_sublist _

/-- The statement with another value for one of its attributes. -/
def withValue (s : Statement) (i : Nat) (value : AttrValue) : Statement :=
  { s with attrs := s.attrs.modify i fun a => { a with value := value } }

/-- With some other value for the attribute the statement would not describe the same. -/
def DependsOn (s : Statement) (i : Nat) : Prop := ∃ value, (s.withValue i value).op? ≠ s.op?

/-- An earlier attribute has the same name. -/
def Repeats (s : Statement) (i : Nat) : Prop :=
  ∃ j earlier a, j < i ∧ s.attrs[j]? = some earlier ∧ s.attrs[i]? = some a ∧
    earlier.name.name = a.name.name

/-- What an operation is described by is given by attributes, and none of them by a question
mark. -/
theorem Describes.reads (h : s.Describes op) {name : String} (hname : name ∈ usedAttrs op) :
    ∃ value, s.HasAttr name value ∧ ∀ span, value ≠ .dynamic span := by
  cases h with
  | parameter hop h =>
    obtain ⟨items, span, h, -⟩ := h
    obtain rfl := List.mem_singleton.mp hname
    exact ⟨_, h, by simp⟩
  | scalar hop h =>
    obtain rfl := List.mem_singleton.mp hname
    cases h with
    | int h => exact ⟨_, h, by simp⟩
    | float h => exact ⟨_, h, by simp⟩
  | broadcastMove hop h =>
    obtain ⟨span, h⟩ := h
    obtain rfl := List.mem_singleton.mp hname
    exact ⟨_, h, by simp⟩
  | reduce r hop h =>
    obtain ⟨span, h⟩ := h
    obtain rfl := List.mem_singleton.mp hname
    exact ⟨_, h, by simp⟩
  | custom hop htext hinputs houtputs hmax =>
    obtain ⟨textSpan, htext⟩ := htext
    obtain ⟨inputsSpan, hinputs⟩ := hinputs
    obtain ⟨outputsSpan, houtputs⟩ := houtputs
    simp only [usedAttrs, List.mem_cons, List.not_mem_nil, or_false] at hname
    rcases hname with rfl | rfl | rfl
    · exact ⟨_, htext, by simp⟩
    · exact ⟨_, hinputs, by simp⟩
    · exact ⟨_, houtputs, by simp⟩
  | _ => cases hname

/-- A statement that has the attributes that an operation reads describes it, whatever other
attributes it has. -/
theorem Describes.of_attrs (h : s.Describes op) {t : Statement} (hop : t.op = s.op)
    (hoperands : t.operands = s.operands)
    (hattrs : ∀ name ∈ usedAttrs op, ∀ value, s.HasAttr name value → t.HasAttr name value) :
    t.Describes op := by
  have hcount : ∀ name ∈ usedAttrs op, ∀ n, s.HasCount name n → t.HasCount name n := by
    intro name hname n hx
    obtain ⟨span, hattr⟩ := hx
    exact ⟨span, hattrs name hname _ hattr⟩
  cases h with
  | parameter hs h =>
    obtain ⟨items, span, hattr, hitems⟩ := h
    exact .parameter (hop ▸ hs) ⟨items, span, hattrs _ (by simp [usedAttrs]) _ hattr, hitems⟩
  | result hs => exact .result (hop ▸ hs)
  | scalar hs h =>
    refine .scalar (hop ▸ hs) ?_
    cases h with
    | int hattr => exact .int (hattrs _ (by simp [usedAttrs]) _ hattr)
    | float hattr => exact .float (hattrs _ (by simp [usedAttrs]) _ hattr)
  | unary f hs => exact .unary f (hop ▸ hs)
  | binary f hs => exact .binary f (hop ▸ hs)
  | broadcastMove hs h => exact .broadcastMove (hop ▸ hs) (hcount _ (by simp [usedAttrs]) _ h)
  | reduce r hs h => exact .reduce r (hop ▸ hs) (hcount _ (by simp [usedAttrs]) _ h)
  | matmul hs => exact .matmul (hop ▸ hs)
  | load hs => exact .load (hop ▸ hs)
  | store hs => exact .store (hop ▸ hs)
  | custom hs htext hinputs houtputs hmax =>
    obtain ⟨span, htext⟩ := htext
    rw [← hoperands]
    refine .custom (hop ▸ hs) ⟨span, hattrs _ (by simp [usedAttrs]) _ htext⟩ ?_
      (hcount _ (by simp [usedAttrs]) _ houtputs) hmax
    rw [hoperands]
    exact hcount _ (by simp [usedAttrs]) _ hinputs

/-! ## Which occurrence counts -/

/-- A change that keeps the name changes what is found only at the first attribute of the name. -/
theorem find?_modify (name : String) (value : AttrValue) (attrs : List Attr) (i : Nat) :
    (attrs.modify i fun a => { a with value := value }).find? (fun a => a.name.name = name) =
      if attrs.findIdx? (fun a => a.name.name = name) = some i then
        (attrs.find? fun a => a.name.name = name).map fun a => { a with value := value }
      else attrs.find? fun a => a.name.name = name := by
  induction attrs generalizing i with
  | nil => simp
  | cons first attrs ih =>
    by_cases hfirst : first.name.name = name
    · cases i with
      | zero => simp [hfirst, List.findIdx?_cons]
      | succ i => simp [hfirst, List.findIdx?_cons]
    · cases i with
      | zero => simp [hfirst, List.findIdx?_cons]
      | succ i => simp [hfirst, List.findIdx?_cons, ih]

/-- The attribute is found under its name if it repeats none. -/
theorem findIdx?_eq_some_iff (ha : s.attrs[i]? = some a) (name : String) :
    s.attrs.findIdx? (fun a => a.name.name = name) = some i ↔
      a.name.name = name ∧ ¬ s.Repeats i := by
  obtain ⟨hi, hat⟩ := List.getElem?_eq_some_iff.mp ha
  rw [List.findIdx?_eq_some_iff_getElem]
  simp only [decide_eq_true_eq]
  constructor
  · intro hx
    obtain ⟨_, hname, hfirst⟩ := hx
    rw [hat] at hname
    refine ⟨hname, fun hrepeats => ?_⟩
    obtain ⟨j, earlier, a', hj, hearlier, ha', hsame⟩ := hrepeats
    have hearlier' := (List.getElem?_eq_some_iff.mp hearlier).2
    rw [Option.some.inj (ha'.symm.trans ha)] at hsame
    exact hfirst j hj (by rw [hearlier', hsame, hname])
  · intro hx
    obtain ⟨hname, hfirst⟩ := hx
    refine ⟨hi, by rw [hat, hname], fun j hj hsame => hfirst ?_⟩
    have hearlier : s.attrs[j]? = some s.attrs[j] :=
      List.getElem?_eq_getElem (Nat.lt_trans hj hi)
    exact ⟨j, _, _, hj, hearlier, ha, hsame.trans hname.symm⟩

theorem attr_withValue_of_first (ha : s.attrs[i]? = some a) (hfirst : ¬ s.Repeats i)
    (value : AttrValue) : (s.withValue i value).attr a.name.name = .ok value := by
  obtain ⟨found, hfound⟩ : ∃ found,
      s.attrs.find? (fun b => b.name.name = a.name.name) = some found := by
    refine Option.isSome_iff_exists.mp (List.find?_isSome.mpr ⟨a, List.mem_of_getElem? ha, ?_⟩)
    exact decide_eq_true rfl
  unfold attr withValue
  rw [find?_modify, if_pos ((findIdx?_eq_some_iff ha _).mpr ⟨rfl, hfirst⟩), hfound]
  rfl

theorem attr_withValue_of_other (ha : s.attrs[i]? = some a) (value : AttrValue) {name : String}
    (hother : ¬ (a.name.name = name ∧ ¬ s.Repeats i)) :
    (s.withValue i value).attr name = s.attr name := by
  unfold attr withValue
  rw [find?_modify, if_neg (mt (findIdx?_eq_some_iff ha name).mp hother)]

/-- What is described depends on the attributes that the operation reads, and of several of one name
on the first. -/
theorem dependsOn_iff (hop : s.op? = .ok op) (ha : s.attrs[i]? = some a) :
    s.DependsOn i ↔ a.name.name ∈ usedAttrs op ∧ ¬ s.Repeats i := by
  have hdescribes : s.Describes op := op?_eq_ok_iff.mp hop
  constructor
  · intro hdepends
    by_contra hother
    obtain ⟨value, hvalue⟩ := hdepends
    have hsame : (s.withValue i value).Describes op := by
      refine hdescribes.of_attrs rfl rfl fun name hname found hfound => ?_
      rw [← attr_eq_ok_iff] at hfound ⊢
      rw [attr_withValue_of_other ha, hfound]
      intro hx
      obtain ⟨rfl, hfirst⟩ := hx
      exact hother ⟨hname, hfirst⟩
    exact hvalue ((op?_eq_ok_iff.mpr hsame).trans hop.symm)
  · intro hx
    obtain ⟨hread, hfirst⟩ := hx
    -- Nothing is described by a question mark.
    refine ⟨.dynamic a.name.span, fun hsame => ?_⟩
    have hmarked : (s.withValue i (.dynamic a.name.span)).Describes op :=
      op?_eq_ok_iff.mp (hsame.trans hop)
    obtain ⟨value, hvalue, hplain⟩ := hmarked.reads hread
    rw [← attr_eq_ok_iff, attr_withValue_of_first ha hfirst] at hvalue
    exact hplain a.name.span (Except.ok.inj hvalue).symm

end Statement

theorem Span.ne_of_start_lt {span other : Span} (h : span.start < other.start) : span ≠ other :=
  fun hsame => Nat.ne_of_lt h (congrArg Span.start hsame)

/-! ## What is reported -/

/-- The problem is that an attribute is ignored. -/
def Problem.isIgnored (q : Problem) : Bool := q.diagnostic.code = some .ignoredAttribute

theorem Problem.OfNode.not_ignored {q : Problem} (h : q.OfNode) : q.isIgnored = false := by
  cases q <;> first | rfl | exact h.elim

theorem Problem.OfDescription.not_ignored {q : Problem} (h : q.OfDescription) :
    q.isIgnored = false := by
  cases q <;> first | rfl | exact h.elim

theorem Statement.filter_isIgnored_remarks (s : Statement) :
    s.remarks.filter Problem.isIgnored =
      s.unread.map fun a => .ignoredAttribute s.op.name a.name := by
  unfold remarks unread
  cases hop : s.op? with
  | error problem =>
    have hother : problem.isIgnored = false := (s.failsToDescribe_op? problem hop).not_ignored
    simp [hother]
  | ok op =>
    refine List.filter_eq_self.mpr fun q hq => ?_
    obtain ⟨a, -, rfl⟩ := List.mem_map.mp hq
    rfl

namespace Program

open Builder

variable {p : Program}

theorem filter_isIgnored_builderAt {k : Nat} (hk : k ≤ p.statements.length) :
    (p.builderAt k).problems.filter Problem.isIgnored =
      (p.statements.take k).flatMap fun s =>
        s.unread.map fun a => .ignoredAttribute s.op.name a.name := by
  induction k with
  | zero => rfl
  | succ k ih =>
    obtain ⟨s, hs⟩ : ∃ s, p.statements[k]? = some s := ⟨_, List.getElem?_eq_getElem hk⟩
    rw [builderAt_succ hs, (p.sound_builderAt k).filter_problems_statement
      (fun q hq => hq.not_ignored), ih (Nat.le_of_succ_le hk), s.filter_isIgnored_remarks,
      filter_unbound _ _ false (fun _ => rfl), filter_rebound _ _ false (fun _ _ => rfl),
      List.take_add_one, hs]
    simp

/-- There is one warning for each attribute that is not read, statement by statement. -/
theorem ignored_diagnostics (p : Program) :
    p.model.diagnostics.filter (fun d => d.code = some .ignoredAttribute) =
      p.statements.flatMap fun s => s.unread.map fun a =>
        { severity := .warning
          code := some .ignoredAttribute
          span := a.name.span
          message := s!"attribute '{a.name.name}' is ignored by '{s.op.name}'" } := by
  have hproblems := p.filter_isIgnored_builderAt (Nat.le_refl _)
  rw [List.take_length] at hproblems
  rw [ModelBuild.diagnostics, List.filter_map, model_eq]
  refine (congrArg (List.map Problem.diagnostic) hproblems).trans ?_
  simp only [List.map_flatMap, List.map_map]
  rfl

/-! ## Where it is reported -/

variable {source : List Char}

/-- In a program that was read from a text, attributes that stand in the same place are the same
attribute of the same statement. -/
theorem attr_eq_of_span (hparse : (parse source).program = some p) {s t : Statement}
    (hs : s ∈ p.statements) (ht : t ∈ p.statements) {a b : Attr} (ha : a ∈ s.attrs)
    (hb : b ∈ t.attrs) (hspan : a.name.span = b.name.span) : s = t ∧ a = b := by
  obtain ⟨hwithin, hacross⟩ := List.pairwise_flatMap.mp (ordered_attrs hparse)
  have hst : s = t := by
    by_contra hne
    have hapart : p.statements.Pairwise fun s t =>
        ∀ a ∈ s.attrs, ∀ b ∈ t.attrs, a.name.span ≠ b.name.span :=
      hacross.imp fun hlt a ha b hb => Span.ne_of_start_lt (hlt a ha b hb)
    have : Std.Symm fun s t : Statement =>
        ∀ a ∈ s.attrs, ∀ b ∈ t.attrs, a.name.span ≠ b.name.span :=
      ⟨fun _ _ h a ha b hb => (h b hb a ha).symm⟩
    exact hapart.forall hs ht hne a ha b hb hspan
  subst hst
  refine ⟨rfl, ?_⟩
  by_contra hne
  have hapart : s.attrs.Pairwise fun a b => a.name.span ≠ b.name.span :=
    (hwithin s hs).imp fun hlt => Span.ne_of_start_lt hlt
  have : Std.Symm fun a b : Attr => a.name.span ≠ b.name.span := ⟨fun _ _ => Ne.symm⟩
  exact hapart.forall ha hb hne hspan

theorem flatMap_unread_sublist (ss : List Statement) :
    (ss.flatMap Statement.unread).Sublist (ss.flatMap Statement.attrs) := by
  induction ss with
  | nil => exact .refl _
  | cons s ss ih =>
    rw [List.flatMap_cons, List.flatMap_cons]
    exact s.unread_sublist.append ih

/-- An attribute of a text is reported once or not at all. -/
theorem count_ignored (hparse : (parse source).program = some p) {s : Statement}
    (hs : s ∈ p.statements) {a : Attr} (ha : a ∈ s.attrs) :
    ((p.model.diagnostics.filter fun d => d.code = some .ignoredAttribute).map
      Diagnostic.span).count a.name.span = if a ∈ s.unread then 1 else 0 := by
  have hspans : (p.model.diagnostics.filter fun d => d.code = some .ignoredAttribute).map
      Diagnostic.span = (p.statements.flatMap Statement.unread).map fun a => a.name.span := by
    rw [ignored_diagnostics, List.map_flatMap, List.map_flatMap]
    simp only [List.map_map]
    rfl
  have hnodup : ((p.statements.flatMap Statement.unread).map fun a => a.name.span).Nodup :=
    List.pairwise_map.mpr (((ordered_attrs hparse).sublist (flatMap_unread_sublist _)).imp
      fun hlt => Span.ne_of_start_lt hlt)
  have hmem : (a.name.span ∈ (p.statements.flatMap Statement.unread).map fun a => a.name.span) ↔
      a ∈ s.unread := by
    constructor
    · intro hspan
      obtain ⟨b, hb, hsame⟩ := List.mem_map.mp hspan
      obtain ⟨t, ht, hb⟩ := List.mem_flatMap.mp hb
      obtain ⟨rfl, rfl⟩ := attr_eq_of_span hparse ht hs (t.unread_sublist.subset hb) ha hsame
      exact hb
    · intro hunread
      exact List.mem_map.mpr ⟨a, List.mem_flatMap.mpr ⟨s, hs, hunread⟩, rfl⟩
  rw [hspans, hnodup.count]
  simp only [hmem]

/-- Warnings about ignored attributes are given exactly for the attributes of names that the
operations do not read, in order. Of the attributes of a statement whose operation is known, those
that its description depends on are never reported. Every other one is, with one exception: an
attribute of a name that the operation reads, after another one of the same name, is neither needed
nor reported. In a program that was read from a text no place is reported twice. -/
theorem ignored_attributes_exact (p : Program) :
    p.model.diagnostics.filter (fun d => d.code = some .ignoredAttribute) =
      (p.statements.flatMap fun s => s.unread.map fun a =>
        { severity := .warning
          code := some .ignoredAttribute
          span := a.name.span
          message := s!"attribute '{a.name.name}' is ignored by '{s.op.name}'" }) ∧
    (∀ s op i a, s ∈ p.statements → s.op? = .ok op → s.attrs[i]? = some a →
      ¬ (s.DependsOn i ∧ a ∈ s.unread) ∧
      (s.DependsOn i ∨ a ∈ s.unread ↔
        ¬ (a.name.name ∈ Statement.usedAttrs op ∧ s.Repeats i))) ∧
    ∀ source s a, (parse source).program = some p → s ∈ p.statements → a ∈ s.attrs →
      ((p.model.diagnostics.filter fun d => d.code = some .ignoredAttribute).map
        Diagnostic.span).count a.name.span = if a ∈ s.unread then 1 else 0 := by
  refine ⟨p.ignored_diagnostics, fun s op i a hs hop ha => ?_,
    fun source s a hparse hs ha => count_ignored hparse hs ha⟩
  rw [Statement.dependsOn_iff hop ha, Statement.mem_unread_iff hop (List.mem_of_getElem? ha)]
  constructor
  · intro hx
    obtain ⟨⟨hread, -⟩, hunread⟩ := hx
    exact hunread hread
  · by_cases hread : a.name.name ∈ Statement.usedAttrs op <;> simp [hread]

/-- A parameter with two shapes. -/
def twoShapesText : List Char := "x = Parameter[shape=[2], shape=[3]]()\n".toList

/-- The same as a statement. -/
def twoShapes : Statement where
  result := some ⟨"x", ⟨0, 1⟩⟩
  op := ⟨"Parameter", ⟨4, 13⟩⟩
  attrs :=
    [⟨⟨"shape", ⟨14, 19⟩⟩, .dims [.fixed 2 ⟨21, 22⟩] ⟨20, 23⟩⟩,
      ⟨⟨"shape", ⟨25, 30⟩⟩, .dims [.fixed 3 ⟨32, 33⟩] ⟨31, 34⟩⟩]
  operands := []
  span := ⟨0, 37⟩

/-- The second shape is not what the operation is made from, and nothing is reported. -/
theorem second_shape_overlooked :
    (parse twoShapesText).program = some ⟨[twoShapes], ⟨0, 38⟩⟩ ∧
    twoShapes.op? = .ok (.parameter ⟨[.ofCode 2]⟩) ∧
    twoShapes.DependsOn 0 ∧ ¬ twoShapes.DependsOn 1 ∧
    (Program.model ⟨[twoShapes], ⟨0, 38⟩⟩).diagnostics = [] := by
  have hop : twoShapes.op? = .ok (.parameter ⟨[.ofCode 2]⟩) := by decide +kernel
  refine ⟨by decide +kernel, hop, ?_, ?_, by decide +kernel⟩
  · rw [Statement.dependsOn_iff hop (show twoShapes.attrs[0]? = some _ from rfl)]
    refine ⟨List.mem_singleton.mpr rfl, fun hrepeats => ?_⟩
    obtain ⟨j, -, -, hj, -⟩ := hrepeats
    exact absurd hj (Nat.not_lt_zero j)
  · rw [Statement.dependsOn_iff hop (show twoShapes.attrs[1]? = some _ from rfl)]
    intro hx
    obtain ⟨-, hfirst⟩ := hx
    exact hfirst ⟨0, _, _, Nat.one_pos, rfl, rfl, rfl⟩

end Program

end TensorIR
