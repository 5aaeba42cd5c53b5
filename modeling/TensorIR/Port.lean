import TensorIR.OrderedMap

/-!
# Identifiers and ports

Expressions and connectors are named by numbers, handed out in increasing order and never twice
(`IdSupply`). A reference by number cannot dangle silently: when the thing is gone, looking the
number up fails.

A port is one operand or one output of an expression: the expression's id, a direction and an index.
Where the direction is known, the rest of it is a `Slot`. Ports and slots are ordered, by expression
first, then (for ports) inputs before outputs, then by index; sets of them are listed in this order.
-/

set_option autoImplicit false

namespace TensorIR

/-- The number of an expression. -/
structure ExprId where
  index : Nat
deriving DecidableEq, Repr, Inhabited

/-- The number of a connector. -/
structure ConnectorId where
  index : Nat
deriving DecidableEq, Repr, Inhabited

/-- Whether a port takes a tensor in or hands one out. -/
inductive Direction where
  | input
  | output
deriving DecidableEq, Repr

/-- One operand or one output of an expression, the direction being known. -/
structure Slot where
  expr : ExprId
  index : Nat
deriving DecidableEq, Repr

/-- One operand or one output of an expression. -/
structure Port where
  expr : ExprId
  direction : Direction
  index : Nat
deriving DecidableEq, Repr

/-! ## The next numbers -/

/-- The numbers to hand out next. -/
structure IdSupply where
  nextExpr : Nat := 0
  nextConnector : Nat := 0
deriving DecidableEq, Repr

namespace IdSupply

/-- Hand out a number for an expression. -/
def freshExpr (ids : IdSupply) : ExprId × IdSupply :=
  (⟨ids.nextExpr⟩, { ids with nextExpr := ids.nextExpr + 1 })

/-- Hand out a number for a connector. -/
def freshConnector (ids : IdSupply) : ConnectorId × IdSupply :=
  (⟨ids.nextConnector⟩, { ids with nextConnector := ids.nextConnector + 1 })

/-- Hand out consecutive numbers for connectors. -/
def freshConnectors (ids : IdSupply) (count : Nat) : List ConnectorId × IdSupply :=
  ((List.range count).map fun i => ⟨ids.nextConnector + i⟩,
    { ids with nextConnector := ids.nextConnector + count })

end IdSupply

/-! ## Order -/

instance : Ord ExprId := ⟨compareOn ExprId.index⟩

instance : Std.TransOrd ExprId := inferInstanceAs (Std.TransCmp (compareOn ExprId.index))

instance : Std.LawfulEqOrd ExprId where
  eq_of_compare {a b} h := by
    have : a.index = b.index :=
      Std.LawfulEqCmp.eq_of_compare (show compare a.index b.index = .eq from h)
    cases a; cases b; congr

instance : Ord ConnectorId := ⟨compareOn ConnectorId.index⟩

instance : Std.TransOrd ConnectorId := inferInstanceAs (Std.TransCmp (compareOn ConnectorId.index))

instance : Std.LawfulEqOrd ConnectorId where
  eq_of_compare {a b} h := by
    have : a.index = b.index :=
      Std.LawfulEqCmp.eq_of_compare (show compare a.index b.index = .eq from h)
    cases a; cases b; congr

instance : Ord Slot := ⟨compareLex (compareOn Slot.expr) (compareOn Slot.index)⟩

instance : Std.TransOrd Slot :=
  inferInstanceAs (Std.TransCmp (compareLex (compareOn Slot.expr) (compareOn Slot.index)))

instance : Std.LawfulEqOrd Slot where
  eq_of_compare {a b} h := by
    obtain ⟨he, hi⟩ := Ordering.then_eq_eq.mp h
    have he : a.expr = b.expr :=
      Std.LawfulEqCmp.eq_of_compare (show compare a.expr b.expr = .eq from he)
    have hi : a.index = b.index :=
      Std.LawfulEqCmp.eq_of_compare (show compare a.index b.index = .eq from hi)
    cases a; cases b; congr

/-- Inputs come before outputs. -/
def Direction.rank : Direction → Nat
  | .input => 0
  | .output => 1

instance : Ord Port :=
  ⟨compareLex (compareOn Port.expr)
    (compareLex (compareOn (Direction.rank ∘ Port.direction)) (compareOn Port.index))⟩

instance : Std.TransOrd Port :=
  inferInstanceAs (Std.TransCmp (compareLex (compareOn Port.expr)
    (compareLex (compareOn (Direction.rank ∘ Port.direction)) (compareOn Port.index))))

instance : Std.LawfulEqOrd Port where
  eq_of_compare {a b} h := by
    obtain ⟨he, h⟩ := Ordering.then_eq_eq.mp h
    obtain ⟨hd, hi⟩ := Ordering.then_eq_eq.mp h
    have he : a.expr = b.expr :=
      Std.LawfulEqCmp.eq_of_compare (show compare a.expr b.expr = .eq from he)
    have hd : a.direction.rank = b.direction.rank :=
      Std.LawfulEqCmp.eq_of_compare
        (show compare a.direction.rank b.direction.rank = .eq from hd)
    have hi : a.index = b.index :=
      Std.LawfulEqCmp.eq_of_compare (show compare a.index b.index = .eq from hi)
    obtain ⟨ea, da, ia⟩ := a
    obtain ⟨eb, db, ib⟩ := b
    cases da <;> cases db <;> simp_all [Direction.rank]

/-! ## Ports and slots -/

namespace Slot

/-- The slot as an operand. -/
def input (slot : Slot) : Port := ⟨slot.expr, .input, slot.index⟩

/-- The slot as an output. -/
def output (slot : Slot) : Port := ⟨slot.expr, .output, slot.index⟩

/-- Different slots of one expression differ in their number. -/
theorem index_ne {slot other : Slot} (hne : slot ≠ other) (hexpr : slot.expr = other.expr) :
    slot.index ≠ other.index := by
  intro hindex
  apply hne
  cases slot
  cases other
  cases hexpr
  cases hindex
  rfl

end Slot

/-- The slot that a port is, its direction left out. -/
def Port.slot (port : Port) : Slot := ⟨port.expr, port.index⟩

theorem Port.eq_input_slot {port : Port} (h : port.direction = .input) :
    port = port.slot.input := by
  cases port
  cases h
  rfl

theorem Port.eq_output_slot {port : Port} (h : port.direction = .output) :
    port = port.slot.output := by
  cases port
  cases h
  rfl

/-- Operands are determined by their slots. -/
theorem Port.eq_of_slot {port other : Port} (hport : port.direction = .input)
    (hother : other.direction = .input) (hslot : port.slot = other.slot) : port = other := by
  rw [eq_input_slot hport, eq_input_slot hother, hslot]

/-! ## Names in text -/

def ExprId.render (id : ExprId) : String := s!"e{id.index}"

def ConnectorId.render (id : ConnectorId) : String := s!"c{id.index}"

/-- The direction as a word. -/
def Direction.name : Direction → String
  | .input => "input"
  | .output => "output"

/-- The direction as it is abbreviated in the name of a port. -/
def Direction.abbreviation : Direction → String
  | .input => "in"
  | .output => "out"

def Port.render (port : Port) : String :=
  s!"{port.expr.render}.{port.direction.abbreviation}{port.index}"

end TensorIR
