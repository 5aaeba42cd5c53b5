import TensorIR.Proofs.Model.Description

/-!
# Statements without their places

Every part of a statement knows where it stands in the source. Apart from messages nothing depends
on that: statements that are the same without their places describe the same operations
(`Statement.Describes.of_unplaced`), because attributes that are looked up by name are found in one
if they are found in the other, with the same values up to places.
-/

set_option autoImplicit false

namespace TensorIR

/-! ## Forgetting places -/

/-- The place that stands for none in particular. -/
def Span.nowhere : Span := ⟨0, 0⟩

def Ident.unplaced (id : Ident) : Ident := ⟨id.name, .nowhere⟩

def DimLiteral.unplaced : DimLiteral → DimLiteral
  | .fixed n _ => .fixed n .nowhere
  | .dynamic _ => .dynamic .nowhere

def AttrValue.unplaced : AttrValue → AttrValue
  | .int n _ => .int n .nowhere
  | .float v _ => .float v .nowhere
  | .ident name => .ident name.unplaced
  | .dynamic _ => .dynamic .nowhere
  | .dims items _ => .dims (items.map DimLiteral.unplaced) .nowhere

def Attr.unplaced (a : Attr) : Attr := ⟨a.name.unplaced, a.value.unplaced⟩

def Operand.unplaced (o : Operand) : Operand := ⟨o.name.unplaced, o.port⟩

/-- The statement as if it stood nowhere in particular. -/
def Statement.unplaced (s : Statement) : Statement where
  result := s.result.map Ident.unplaced
  op := s.op.unplaced
  attrs := s.attrs.map Attr.unplaced
  operands := s.operands.map Operand.unplaced
  span := .nowhere

theorem Ident.name_of_unplaced {id id' : Ident} (h : id.unplaced = id'.unplaced) :
    id.name = id'.name :=
  (Ident.mk.inj h).1

theorem Attr.name_of_unplaced {a a' : Attr} (h : a.unplaced = a'.unplaced) :
    a.name.name = a'.name.name :=
  Ident.name_of_unplaced (Attr.mk.inj h).1

theorem Operand.parts_of_unplaced {o o' : Operand} (h : o.unplaced = o'.unplaced) :
    o.name.name = o'.name.name ∧ o.port = o'.port :=
  ⟨Ident.name_of_unplaced (Operand.mk.inj h).1, (Operand.mk.inj h).2⟩

namespace Statement

variable {s t : Statement} {name : String} {value : AttrValue} {op : Op}

theorem op_name_of_unplaced (h : s.unplaced = t.unplaced) : t.op.name = s.op.name :=
  (congrArg (fun u : Statement => u.op.name) h).symm

theorem operands_of_unplaced (h : s.unplaced = t.unplaced) :
    s.operands.map Operand.unplaced = t.operands.map Operand.unplaced :=
  congrArg Statement.operands h

theorem length_operands_of_unplaced (h : s.unplaced = t.unplaced) :
    t.operands.length = s.operands.length := by
  have hlength := congrArg List.length (operands_of_unplaced h)
  rw [List.length_map, List.length_map] at hlength
  exact hlength.symm

theorem exists_operand_of_unplaced (h : s.unplaced = t.unplaced) {o : Operand}
    (ho : o ∈ t.operands) : ∃ o' ∈ s.operands, o'.name.name = o.name.name ∧ o'.port = o.port := by
  have hmem := List.mem_map_of_mem (f := Operand.unplaced) ho
  rw [← operands_of_unplaced h] at hmem
  obtain ⟨o', ho', heq⟩ := List.mem_map.mp hmem
  exact ⟨o', ho', Operand.parts_of_unplaced heq⟩

theorem exists_result_of_unplaced (h : s.unplaced = t.unplaced) {id : Ident}
    (hid : s.result = some id) : ∃ id', t.result = some id' ∧ id'.name = id.name := by
  have hresult : s.result.map Ident.unplaced = t.result.map Ident.unplaced :=
    congrArg Statement.result h
  rw [hid, Option.map_some] at hresult
  obtain ⟨id', hid', heq⟩ := Option.map_eq_some_iff.mp hresult.symm
  exact ⟨id', hid', Ident.name_of_unplaced heq⟩

theorem nodeName_unplaced (s : Statement) (index : Nat) :
    s.unplaced.nodeName index = s.nodeName index := by
  obtain ⟨result, op, attrs, operands, span⟩ := s
  cases result <;> rfl

theorem nodeName_of_unplaced (h : s.unplaced = t.unplaced) (index : Nat) :
    s.nodeName index = t.nodeName index := by
  rw [← nodeName_unplaced s, h, nodeName_unplaced]

/-! ## Attributes -/

theorem HasAttr.of_unplaced (heq : s.unplaced = t.unplaced) (h : s.HasAttr name value) :
    ∃ value', t.HasAttr name value' ∧ value'.unplaced = value.unplaced := by
  obtain ⟨before, a, after, hattrs, hname, rfl, hbefore⟩ := h
  have hsame : t.attrs.map Attr.unplaced = before.map Attr.unplaced ++
      a.unplaced :: after.map Attr.unplaced := by
    rw [← List.map_cons, ← List.map_append, ← hattrs]
    exact (congrArg Statement.attrs heq).symm
  obtain ⟨before', rest, hattrs', hsame', hrest⟩ := List.map_eq_append_iff.mp hsame
  obtain ⟨a', after', rfl, ha', -⟩ := List.map_eq_cons_iff.mp hrest
  refine ⟨a'.value, ⟨before', a', after', hattrs', ?_, rfl, fun earlier hearlier => ?_⟩,
    congrArg Attr.value ha'⟩
  · exact (Attr.name_of_unplaced ha').trans hname
  · have hmem := List.mem_map_of_mem (f := Attr.unplaced) hearlier
    rw [hsame'] at hmem
    obtain ⟨other, hother, hsame⟩ := List.mem_map.mp hmem
    exact (Attr.name_of_unplaced hsame).symm.trans_ne (hbefore other hother)

theorem HasCount.of_unplaced {n : Nat} (heq : s.unplaced = t.unplaced) (h : s.HasCount name n) :
    t.HasCount name n := by
  obtain ⟨span, hattr⟩ := h
  obtain ⟨value, hattr', hvalue⟩ := hattr.of_unplaced heq
  cases value <;> cases hvalue
  exact ⟨_, hattr'⟩

theorem HasNumber.of_unplaced {v : Binary64} (heq : s.unplaced = t.unplaced)
    (h : s.HasNumber name v) : t.HasNumber name v := by
  cases h with
  | int hattr =>
    obtain ⟨value, hattr', hvalue⟩ := hattr.of_unplaced heq
    cases value <;> cases hvalue
    exact .int hattr'
  | float hattr =>
    obtain ⟨value, hattr', hvalue⟩ := hattr.of_unplaced heq
    cases value <;> cases hvalue
    exact .float hattr'

theorem HasName.of_unplaced {text : String} (heq : s.unplaced = t.unplaced)
    (h : s.HasName name text) : t.HasName name text := by
  obtain ⟨span, hattr⟩ := h
  obtain ⟨value, hattr', hvalue⟩ := hattr.of_unplaced heq
  cases value <;> cases hvalue
  exact ⟨_, hattr'⟩

theorem meansDim_unplaced (literal : DimLiteral) (d : Dim) :
    MeansDim literal.unplaced d ↔ MeansDim literal d := by
  cases literal with
  | fixed n span =>
    constructor <;>
    · rintro ⟨⟩
      exact .fixed ..
  | dynamic span =>
    constructor <;>
    · rintro ⟨⟩
      exact .dynamic _

theorem HasShape.of_unplaced {shape : Shape} (heq : s.unplaced = t.unplaced)
    (h : s.HasShape name shape) : t.HasShape name shape := by
  obtain ⟨items, span, hattr, hdims⟩ := h
  obtain ⟨value, hattr', hvalue⟩ := hattr.of_unplaced heq
  have hunplaced : List.Forall₂ MeansDim (items.map DimLiteral.unplaced) shape.dims := by
    rw [List.forall₂_map_left_iff]
    simpa only [meansDim_unplaced] using hdims
  cases value with
  | dims items' span' =>
    refine ⟨items', span', hattr', ?_⟩
    rw [← (AttrValue.dims.inj hvalue).1, List.forall₂_map_left_iff] at hunplaced
    simpa only [meansDim_unplaced] using hunplaced
  | _ => cases hvalue

/-! ## Operations -/

/-- What a statement describes does not depend on where it stands. -/
theorem Describes.of_unplaced (heq : s.unplaced = t.unplaced) (h : s.Describes op) :
    t.Describes op := by
  have hname := op_name_of_unplaced heq
  cases h with
  | parameter hop h => exact .parameter (hname.trans hop) (h.of_unplaced heq)
  | result hop => exact .result (hname.trans hop)
  | scalar hop h => exact .scalar (hname.trans hop) (h.of_unplaced heq)
  | unary f hop => exact .unary f (hname.trans hop)
  | binary f hop => exact .binary f (hname.trans hop)
  | broadcastMove hop h => exact .broadcastMove (hname.trans hop) (h.of_unplaced heq)
  | reduce r hop h => exact .reduce r (hname.trans hop) (h.of_unplaced heq)
  | matmul hop => exact .matmul (hname.trans hop)
  | load hop => exact .load (hname.trans hop)
  | store hop => exact .store (hname.trans hop)
  | custom hop htext hinputs houtputs hmax =>
    rw [← length_operands_of_unplaced heq] at hinputs ⊢
    exact .custom (hname.trans hop) (htext.of_unplaced heq) (hinputs.of_unplaced heq)
      (houtputs.of_unplaced heq) hmax

end Statement

end TensorIR
