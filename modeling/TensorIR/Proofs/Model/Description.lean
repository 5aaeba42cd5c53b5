import Mathlib.Data.List.Forall2
import TensorIR.Model.Attributes
import TensorIR.Proofs.Except

/-!
# What a statement describes

An operation is described by its name and by the attributes that it needs, each of its kind
(`Statement.Describes`). Of several attributes of one name the first counts. Reading a statement
finds the operation if one is described, and otherwise a problem (`Statement.op?_eq_ok_iff`).
-/

set_option autoImplicit false

namespace TensorIR

/-! ## Attributes -/

namespace Statement

variable {s : Statement} {name : String} {value : AttrValue} {op : Op} {n : Nat} {v : Binary64}
  {shape : Shape}

/-- The first attribute of the name has the value. -/
def HasAttr (s : Statement) (name : String) (value : AttrValue) : Prop :=
  ∃ before a after, s.attrs = before ++ a :: after ∧ a.name.name = name ∧ a.value = value ∧
    ∀ earlier ∈ before, earlier.name.name ≠ name

/-- The attribute is a count: an integer that is not negative. -/
def HasCount (s : Statement) (name : String) (n : Nat) : Prop :=
  ∃ span, s.HasAttr name (.int n span)

/-- The attribute is a number. An integer stands for the float next to it. -/
inductive HasNumber (s : Statement) (name : String) : Binary64 → Prop
  | int {n : Int} {span : Span} (h : s.HasAttr name (.int n span)) : HasNumber s name (.ofInt n)
  | float {v : Binary64} {span : Span} (h : s.HasAttr name (.float v span)) : HasNumber s name v

def HasName (s : Statement) (name : String) (text : String) : Prop :=
  ∃ span, s.HasAttr name (.ident ⟨text, span⟩)

/-- What a literal stands for as a dimension. -/
inductive MeansDim : DimLiteral → Dim → Prop
  | fixed (n : Nat) (span : Span) : MeansDim (.fixed n span) (.ofCode n)
  | dynamic (span : Span) : MeansDim (.dynamic span) .dynamic

def HasShape (s : Statement) (name : String) (shape : Shape) : Prop :=
  ∃ items span, s.HasAttr name (.dims items span) ∧ List.Forall₂ MeansDim items shape.dims

/-- The statement describes the operation. -/
inductive Describes (s : Statement) : Op → Prop
  | parameter {shape : Shape} (hop : s.op.name = "Parameter") (h : s.HasShape "shape" shape) :
    Describes s (.parameter shape)
  | result (hop : s.op.name = "Result") : Describes s .result
  | scalar {v : Binary64} (hop : s.op.name = "Scalar") (h : s.HasNumber "value" v) :
    Describes s (.scalar v)
  | unary (f : UnaryOp) (hop : s.op.name = f.name) : Describes s (.unary f)
  | binary (f : BinaryOp) (hop : s.op.name = f.name) : Describes s (.binary f)
  | broadcastMove {n : Nat} (hop : s.op.name = "BroadcastMove") (h : s.HasCount "dim" n) :
    Describes s (.broadcastMove (.ofCode n))
  | reduce (r : Reduction) {axis : Nat} (hop : s.op.name = r.name) (h : s.HasCount "axis" axis) :
    Describes s (.reduce r axis)
  | matmul (hop : s.op.name = "MatMul") : Describes s .matmul
  | load (hop : s.op.name = "Load") : Describes s .load
  | store (hop : s.op.name = "Store") : Describes s .store
  | custom {text : String} {outputs : Nat} (hop : s.op.name = "Custom")
    (hname : s.HasName "name" text) (hinputs : s.HasCount "inputs" s.operands.length)
    (houtputs : s.HasCount "outputs" outputs) (hmax : outputs ≤ maxCustomOutputs) :
    Describes s (.custom text s.operands.length outputs)

theorem attr_eq_ok_iff : s.attr name = .ok value ↔ s.HasAttr name value := by
  have hfind : s.attr name = .ok value ↔
      ∃ a, s.attrs.find? (fun a => a.name.name = name) = some a ∧ a.value = value := by
    unfold attr
    cases s.attrs.find? (fun a => a.name.name = name) <;> simp
  rw [hfind]
  simp only [List.find?_eq_some_iff_append, decide_eq_true_eq, Bool.not_eq_true',
    decide_eq_false_iff_not]
  constructor
  · rintro ⟨a, ⟨hname, before, after, hattrs, hbefore⟩, hvalue⟩
    exact ⟨before, a, after, hattrs, hname, hvalue, hbefore⟩
  · rintro ⟨before, a, after, hattrs, hname, hvalue, hbefore⟩
    exact ⟨a, ⟨hname, before, after, hattrs, hbefore⟩, hvalue⟩

theorem countAttr_eq_ok_iff : s.countAttr name = .ok n ↔ s.HasCount name n := by
  unfold countAttr HasCount
  simp only [bind_eq_ok_iff, ← attr_eq_ok_iff]
  constructor
  · rintro ⟨value, hvalue, h⟩
    split at h
    next m span =>
      split at h
      next hm =>
        obtain rfl := Except.ok.inj h
        exact ⟨span, by rw [Int.toNat_of_nonneg hm, hvalue]⟩
      next => cases h
    next => cases h
  · rintro ⟨span, hvalue⟩
    refine ⟨_, hvalue, ?_⟩
    simp [pure, Except.pure]

theorem numberAttr_eq_ok_iff : s.numberAttr name = .ok v ↔ s.HasNumber name v := by
  unfold numberAttr
  simp only [bind_eq_ok_iff, attr_eq_ok_iff]
  constructor
  · rintro ⟨value, hvalue, h⟩
    split at h
    · obtain rfl := Except.ok.inj h
      exact .int hvalue
    · obtain rfl := Except.ok.inj h
      exact .float hvalue
    · cases h
  · intro h
    cases h with
    | int h => exact ⟨_, h, rfl⟩
    | float h => exact ⟨_, h, rfl⟩

theorem nameAttr_eq_ok_iff {text : String} : s.nameAttr name = .ok text ↔ s.HasName name text := by
  unfold nameAttr HasName
  simp only [bind_eq_ok_iff, attr_eq_ok_iff]
  constructor
  · rintro ⟨value, hvalue, h⟩
    split at h
    next id =>
      obtain rfl := Except.ok.inj h
      exact ⟨id.span, hvalue⟩
    next => cases h
  · rintro ⟨span, h⟩
    exact ⟨_, h, rfl⟩

theorem dim_eq_ok_iff {literal : DimLiteral} {d : Dim} :
    dim literal = .ok d ↔ MeansDim literal d := by
  constructor
  · intro h
    cases literal with
    | fixed n span =>
      simp only [dim] at h
      split at h
      next hn =>
        obtain rfl := Except.ok.inj h
        obtain ⟨m, rfl⟩ := Int.eq_ofNat_of_zero_le hn
        exact .fixed m span
      next => cases h
    | dynamic span =>
      obtain rfl := Except.ok.inj h
      exact .dynamic span
  · intro h
    cases h with
    | fixed n span => simp [dim]
    | dynamic span => rfl

theorem shapeAttr_eq_ok_iff : s.shapeAttr name = .ok shape ↔ s.HasShape name shape := by
  have hdims : ∀ items : List DimLiteral, items.mapM dim = .ok shape.dims ↔
      List.Forall₂ MeansDim items shape.dims := by
    intro items
    rw [mapM_eq_ok_iff, ← List.forall₂_eq_eq_eq, List.forall₂_map_left_iff,
      List.forall₂_map_right_iff]
    simp only [dim_eq_ok_iff]
  unfold shapeAttr HasShape
  simp only [bind_eq_ok_iff, attr_eq_ok_iff, ← hdims]
  constructor
  · rintro ⟨value, hvalue, h⟩
    split at h
    next items span =>
      obtain ⟨dims, hitems, h⟩ := bind_eq_ok_iff.mp h
      obtain rfl := Except.ok.inj h
      exact ⟨items, span, hvalue, hitems⟩
    next => cases h
  · rintro ⟨items, span, hvalue, hitems⟩
    exact ⟨_, hvalue, bind_eq_ok_iff.mpr ⟨_, hitems, rfl⟩⟩

/-! ## Operations -/

theorem custom?_eq_ok_iff : s.custom? = .ok op ↔ ∃ text outputs, s.HasName "name" text ∧
    s.HasCount "inputs" s.operands.length ∧ s.HasCount "outputs" outputs ∧
    outputs ≤ maxCustomOutputs ∧ op = .custom text s.operands.length outputs := by
  unfold custom?
  simp only [bind_eq_ok_iff, nameAttr_eq_ok_iff, countAttr_eq_ok_iff]
  constructor
  · rintro ⟨text, hname, inputs, hinputs, outputs, houtputs, h⟩
    split at h
    · cases h
    next hlength =>
      split at h
      · cases h
      next hmax =>
        obtain rfl := Except.ok.inj h
        obtain rfl := not_not.mp hlength
        exact ⟨text, outputs, hname, hinputs, houtputs, Nat.le_of_not_lt hmax, rfl⟩
  · rintro ⟨text, outputs, hname, hinputs, houtputs, hmax, rfl⟩
    refine ⟨text, hname, _, hinputs, outputs, houtputs, ?_⟩
    simp [Nat.not_lt.mpr hmax, pure, Except.pure]

/-- A statement is read as the operation that it describes. One case for each name of an operation,
in either direction. -/
theorem op?_eq_ok_iff : s.op? = .ok op ↔ s.Describes op := by
  constructor
  · intro h
    unfold op? at h
    split at h
    case h_1 hop =>
      obtain ⟨shape, hshape, h⟩ := bind_eq_ok_iff.mp h
      obtain rfl := Except.ok.inj h
      exact .parameter hop (shapeAttr_eq_ok_iff.mp hshape)
    case h_2 hop => exact Except.ok.inj h ▸ .result hop
    case h_3 hop =>
      obtain ⟨v, hv, h⟩ := bind_eq_ok_iff.mp h
      obtain rfl := Except.ok.inj h
      exact .scalar hop (numberAttr_eq_ok_iff.mp hv)
    case h_4 hop => exact Except.ok.inj h ▸ .unary .relu hop
    case h_5 hop => exact Except.ok.inj h ▸ .unary .exp hop
    case h_6 hop => exact Except.ok.inj h ▸ .unary .neg hop
    case h_7 hop => exact Except.ok.inj h ▸ .unary .sqrt hop
    case h_8 hop => exact Except.ok.inj h ▸ .binary .add hop
    case h_9 hop => exact Except.ok.inj h ▸ .binary .subtract hop
    case h_10 hop => exact Except.ok.inj h ▸ .binary .multiply hop
    case h_11 hop => exact Except.ok.inj h ▸ .binary .divide hop
    case h_12 hop => exact Except.ok.inj h ▸ .binary .maximum hop
    case h_13 hop =>
      obtain ⟨n, hn, h⟩ := bind_eq_ok_iff.mp h
      obtain rfl := Except.ok.inj h
      exact .broadcastMove hop (countAttr_eq_ok_iff.mp hn)
    case h_14 hop =>
      obtain ⟨axis, haxis, h⟩ := bind_eq_ok_iff.mp h
      obtain rfl := Except.ok.inj h
      exact .reduce .sum hop (countAttr_eq_ok_iff.mp haxis)
    case h_15 hop =>
      obtain ⟨axis, haxis, h⟩ := bind_eq_ok_iff.mp h
      obtain rfl := Except.ok.inj h
      exact .reduce .max hop (countAttr_eq_ok_iff.mp haxis)
    case h_16 hop => exact Except.ok.inj h ▸ .matmul hop
    case h_17 hop => exact Except.ok.inj h ▸ .load hop
    case h_18 hop => exact Except.ok.inj h ▸ .store hop
    case h_19 hop =>
      obtain ⟨text, outputs, hname, hinputs, houtputs, hmax, rfl⟩ := custom?_eq_ok_iff.mp h
      exact .custom hop hname hinputs houtputs hmax
    case h_20 => cases h
  · intro h
    cases h with
    | parameter hop h =>
      simp only [op?, hop, bind_eq_ok_iff]
      exact ⟨_, shapeAttr_eq_ok_iff.mpr h, rfl⟩
    | scalar hop h =>
      simp only [op?, hop, bind_eq_ok_iff]
      exact ⟨_, numberAttr_eq_ok_iff.mpr h, rfl⟩
    | unary f hop => cases f <;> simp only [op?, hop] <;> rfl
    | binary f hop => cases f <;> simp only [op?, hop] <;> rfl
    | broadcastMove hop h =>
      simp only [op?, hop, bind_eq_ok_iff]
      exact ⟨_, countAttr_eq_ok_iff.mpr h, rfl⟩
    | reduce r hop h =>
      cases r <;> simp only [op?, hop, Reduction.name, bind_eq_ok_iff] <;>
        exact ⟨_, countAttr_eq_ok_iff.mpr h, rfl⟩
    | custom hop hname hinputs houtputs hmax =>
      simp only [op?, hop]
      exact custom?_eq_ok_iff.mpr ⟨_, _, hname, hinputs, houtputs, hmax, rfl⟩
    | _ hop =>
      simp only [op?, hop]
      rfl

/-- A statement describes one operation at most. -/
theorem Describes.unique {op' : Op} (h : s.Describes op) (h' : s.Describes op') : op = op' :=
  Except.ok.inj ((op?_eq_ok_iff.mpr h).symm.trans (op?_eq_ok_iff.mpr h'))

end Statement

end TensorIR
