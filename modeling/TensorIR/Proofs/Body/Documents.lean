import Mathlib.Data.List.Basic
import TensorIR.Body.Snapshot
import TensorIR.Proofs.Json.Unambiguous

/-!
# Snapshots can be read off their documents

Documents can be read off their texts, and here snapshots off their documents: fields stand in a
fixed order, and what follows a field that may be left out has other names only. So the texts of two
bodies, in either layout, are equal exactly when the snapshots are.
-/

set_option autoImplicit false

namespace TensorIR

/-! ## Fields and lists -/

namespace Json

theorem nat_injective : Function.Injective nat := by
  intro m n h
  exact Int.ofNat.inj (number.inj h)

theorem array_map_inj {α : Type} {encode : α → Json} (hencode : Function.Injective encode)
    {xs ys : List α} (h : array (xs.map encode) = array (ys.map encode)) : xs = ys :=
  List.map_injective_iff.mpr hencode (array.inj h)

/-- No field has the name. -/
def Lacks (name : String) (fields : List (String × Json)) : Prop :=
  ∀ field ∈ fields, field.1 ≠ name

theorem lacks_nil (name : String) : Lacks name [] := by
  simp [Lacks]

theorem Lacks.append {name : String} {fields fields' : List (String × Json)}
    (h : Lacks name fields) (h' : Lacks name fields') : Lacks name (fields ++ fields') := by
  intro field hfield
  exact (List.mem_append.mp hfield).elim (h field) (h' field)

theorem lacks_optional {α : Type} {name other : String} {encode : α → Json} {a : Option α}
    (hne : other ≠ name) : Lacks name (optional other encode a) := by
  intro field hfield
  cases a with
  | none => simp [optional] at hfield
  | some a => rwa [List.mem_singleton.mp hfield]

/-- Whether an optional field is there can be told, since no other field has its name. -/
theorem optional_append_inj {α : Type} {name : String} {encode : α → Json}
    (hencode : Function.Injective encode) {a b : Option α} {rest rest' : List (String × Json)}
    (hrest : Lacks name rest) (hrest' : Lacks name rest')
    (h : optional name encode a ++ rest = optional name encode b ++ rest') :
    a = b ∧ rest = rest' := by
  cases a with
  | none =>
    cases b with
    | none => exact ⟨rfl, h⟩
    | some b =>
      have hmem : (name, encode b) ∈ rest := by
        rw [show rest = optional name encode (some b) ++ rest' from h]
        exact List.mem_cons_self
      exact absurd rfl (hrest _ hmem)
  | some a =>
    cases b with
    | none =>
      have hmem : (name, encode a) ∈ rest' := by
        rw [show rest' = optional name encode (some a) ++ rest from h.symm]
        exact List.mem_cons_self
      exact absurd rfl (hrest' _ hmem)
    | some b =>
      obtain ⟨hfield, hrest⟩ := List.cons.inj h
      exact ⟨congrArg some (hencode (Prod.mk.inj hfield).2), hrest⟩

theorem optional_inj {α : Type} {name : String} {encode : α → Json}
    (hencode : Function.Injective encode) {a b : Option α}
    (h : optional name encode a = optional name encode b) : a = b := by
  have hempty : optional name encode a ++ [] = optional name encode b ++ [] := by rw [h]
  exact (optional_append_inj hencode (lacks_nil name) (lacks_nil name) hempty).1

end Json

/-! ## One kind of document after the other -/

theorem Dim.json_injective : Function.Injective Dim.json := by
  intro d d' h
  cases d with
  | dynamic =>
    cases d' with
    | dynamic => rfl
    | static size => cases h
  | static size =>
    cases d' with
    | dynamic => cases h
    | static size' => rw [Fin.ext (Json.nat_injective h)]

theorem RegisterFile.name_injective : Function.Injective RegisterFile.name := by
  intro f f' h
  cases f <;> cases f' <;> first | rfl | exact absurd h (by decide)

theorem Direction.name_injective : Function.Injective Direction.name := by
  intro d d' h
  cases d <;> cases d' <;> first | rfl | exact absurd h (by decide)

theorem Register.json_injective : Function.Injective Register.json := by
  rintro ⟨file, index⟩ ⟨file', index'⟩ h
  simp only [Register.json, Json.object.injEq, List.cons.injEq, Prod.mk.injEq,
    Json.string.injEq] at h
  obtain ⟨⟨-, hfile⟩, ⟨-, hindex⟩, -⟩ := h
  rw [RegisterFile.name_injective hfile, Json.nat_injective hindex]

theorem BoundaryRole.json_injective : Function.Injective BoundaryRole.json := by
  rintro ⟨side, ordinal⟩ ⟨side', ordinal'⟩ h
  simp only [BoundaryRole.json, Json.object.injEq, List.cons.injEq, Prod.mk.injEq,
    Json.number.injEq, Json.string.injEq] at h
  obtain ⟨⟨-, hordinal⟩, ⟨-, hside⟩, -⟩ := h
  rw [Direction.name_injective hside, hordinal]

theorem Port.json_injective : Function.Injective Port.json := by
  rintro ⟨⟨expr⟩, direction, index⟩ ⟨⟨expr'⟩, direction', index'⟩ h
  simp only [Port.json, Json.object.injEq, List.cons.injEq, Prod.mk.injEq,
    Json.string.injEq] at h
  obtain ⟨⟨-, hexpr⟩, ⟨-, hdirection⟩, ⟨-, hindex⟩, -⟩ := h
  rw [Json.nat_injective hexpr, Direction.name_injective hdirection, Json.nat_injective hindex]

theorem Wire.json_injective : Function.Injective Wire.json := by
  rintro ⟨⟨connector⟩, ⟨⟨dims⟩, layout, subtensor, register⟩⟩
    ⟨⟨connector'⟩, ⟨⟨dims'⟩, layout', subtensor', register'⟩⟩ h
  simp only [Wire.json, Json.object.injEq, List.cons_append, List.nil_append, List.cons.injEq,
    Prod.mk.injEq] at h
  obtain ⟨⟨-, hconnector⟩, ⟨-, hdims⟩, ⟨-, hlayout⟩, ⟨-, hsubtensor⟩, hregister⟩ := h
  rw [Json.optional_inj Register.json_injective hregister,
    Json.nat_injective hconnector, Json.array_map_inj Dim.json_injective hdims,
    Json.array_map_inj Json.nat_injective hlayout,
    Json.array_map_inj Dim.json_injective hsubtensor]

/-- The numbers of loops, where there are any. -/
def ExpressionSnapshot.loops? (e : ExpressionSnapshot) : Option (List Nat) :=
  if e.loops.isEmpty then none else some e.loops

theorem ExpressionSnapshot.loops_eq {e e' : ExpressionSnapshot} (h : e.loops? = e'.loops?) :
    e.loops = e'.loops := by
  unfold loops? at h
  split at h
  next he =>
    split at h
    next he' => rw [List.isEmpty_iff.mp he, List.isEmpty_iff.mp he']
    next => cases h
  next =>
    split at h
    next => cases h
    next => exact Option.some.inj h

/-- The field of the loops is an optional one. -/
theorem ExpressionSnapshot.loops_field (e : ExpressionSnapshot) :
    (if e.loops.isEmpty then [] else [("loop_ids", Json.array (e.loops.map Json.nat))]) =
      Json.optional "loop_ids" (fun loops => .array (loops.map Json.nat)) e.loops? := by
  unfold loops?
  split <;> rfl

/-- A number that an expression need not have. -/
theorem ExprId.json_inj {id id' : Option ExprId}
    (h : (match id with | some id => Json.nat id.index | none => Json.null) =
      match id' with | some id => Json.nat id.index | none => Json.null) : id = id' := by
  cases id with
  | none =>
    cases id' with
    | none => rfl
    | some id' => cases h
  | some id =>
    cases id' with
    | none => cases h
    | some id' =>
      obtain ⟨index⟩ := id
      obtain ⟨index'⟩ := id'
      obtain rfl : index = index' := Json.nat_injective h
      rfl

theorem ExpressionSnapshot.json_injective : Function.Injective ExpressionSnapshot.json := by
  intro e e' h
  simp only [ExpressionSnapshot.json, loops_field, Json.object.injEq, List.append_assoc,
    List.cons_append, List.nil_append, List.cons.injEq, Prod.mk.injEq, Json.string.injEq] at h
  obtain ⟨⟨-, hid⟩, ⟨-, hname⟩, ⟨-, hop⟩, ⟨-, hinputs⟩, ⟨-, houtputs⟩, hrest⟩ := h
  -- The other fields may be left out, and each one is told from those after it by its name.
  obtain ⟨hloops, hrest⟩ := Json.optional_append_inj
    (fun _ _ h => Json.array_map_inj Json.nat_injective h)
    ((Json.lacks_optional (by decide)).append (Json.lacks_optional (by decide)))
    ((Json.lacks_optional (by decide)).append (Json.lacks_optional (by decide))) hrest
  obtain ⟨hrole, hemitter⟩ := Json.optional_append_inj BoundaryRole.json_injective
    (Json.lacks_optional (by decide)) (Json.lacks_optional (by decide)) hrest
  have hemitter := Json.optional_inj (fun _ _ h => Json.string.inj h) hemitter
  have hid := ExprId.json_inj hid
  have hinputs := Json.array_map_inj Wire.json_injective hinputs
  have houtputs := Json.array_map_inj Wire.json_injective houtputs
  have hloops := loops_eq hloops
  cases e
  cases e'
  simp only at hid hname hop hinputs houtputs hloops hrole hemitter
  rw [hid, hname, hop, hinputs, houtputs, hloops, hrole, hemitter]

theorem ConnectorSnapshot.json_injective : Function.Injective ConnectorSnapshot.json := by
  rintro ⟨⟨id⟩, source, readers⟩ ⟨⟨id'⟩, source', readers'⟩ h
  simp only [ConnectorSnapshot.json, Json.object.injEq, List.cons.injEq, Prod.mk.injEq] at h
  obtain ⟨⟨-, hid⟩, ⟨-, hsource⟩, ⟨-, hreaders⟩, -⟩ := h
  rw [Json.nat_injective hid, Port.json_injective hsource,
    Json.array_map_inj Port.json_injective hreaders]

theorem Snapshot.json_injective : Function.Injective Snapshot.json := by
  rintro ⟨version, expressions, connectors⟩ ⟨version', expressions', connectors'⟩ h
  simp only [Snapshot.json, Json.object.injEq, List.cons.injEq, Prod.mk.injEq] at h
  obtain ⟨⟨-, hversion⟩, ⟨-, hexpressions⟩, ⟨-, hconnectors⟩, -⟩ := h
  rw [Json.nat_injective hversion, Json.array_map_inj ExpressionSnapshot.json_injective hexpressions,
    Json.array_map_inj ConnectorSnapshot.json_injective hconnectors]

/-! ## The texts of a body -/

theorem toList_loop (bytes : ByteArray) (i : Nat) (read : List UInt8) :
    ByteArray.toList.loop bytes i read = read.reverse ++ bytes.data.toList.drop i := by
  fun_induction ByteArray.toList.loop with
  | case1 i read hi ih =>
    have hi' : i < bytes.data.size := hi
    have hlength : i < bytes.data.toList.length := hi'
    have hget : bytes.get! i = bytes.data.toList[i] := by
      show bytes.data[i]! = _
      rw [getElem!_pos bytes.data i hi', Array.getElem_toList]
    rw [ih, List.reverse_cons, List.append_assoc, List.drop_eq_getElem_cons hlength, hget]
    rfl
  | case2 i read hi =>
    have hend : bytes.data.toList.drop i = [] := by simpa using hi
    rw [hend, List.append_nil]

theorem bytes_injective : Function.Injective fun text : String => text.toUTF8.toList := by
  have hlist : ∀ bytes : ByteArray, bytes.toList = bytes.data.toList := by
    intro bytes
    rw [ByteArray.toList, toList_loop, List.reverse_nil, List.nil_append, List.drop_zero]
  intro text text' h
  have hdata : text.toUTF8.data.toList = text'.toUTF8.data.toList := by
    rw [← hlist, ← hlist]
    exact h
  exact String.toByteArray_inj.mp (ByteArray.ext (Array.toList_inj.mp hdata))

namespace Body

variable {b b' : Body}

theorem compactJson_eq_iff : b.compactJson = b'.compactJson ↔ b.snapshot = b'.snapshot := by
  constructor
  · intro h
    exact Snapshot.json_injective (Json.compact_injective h)
  · intro h
    rw [compactJson, compactJson, h]

theorem prettyJson_eq_iff : b.prettyJson = b'.prettyJson ↔ b.snapshot = b'.snapshot := by
  constructor
  · intro h
    exact Snapshot.json_injective (Json.pretty_injective h)
  · intro h
    rw [prettyJson, prettyJson, h]

/-- What is fingerprinted is the text itself. -/
theorem bytes_eq_iff :
    b.compactJson.toUTF8.toList = b'.compactJson.toUTF8.toList ↔ b.snapshot = b'.snapshot :=
  bytes_injective.eq_iff.trans compactJson_eq_iff

end Body

end TensorIR
