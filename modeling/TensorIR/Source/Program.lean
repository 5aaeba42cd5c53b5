import TensorIR.Source.Token

/-!
# Programs

A program lists statements in the order in which they run. A statement applies an operation to
operands, with attributes, and may bind a name to the operation's outputs. Every part knows where
it stands in the source, for the sake of messages.

An operand names a value, or one of several outputs of it by a number after the last point. Names
may contain points themselves, so only a numeral after the last point counts (`Operand.ofIdent`).
-/

set_option autoImplicit false

namespace TensorIR

/-- A name and where it stands. -/
structure Ident where
  name : String
  span : Span
deriving DecidableEq, Repr

/-- A dimension as it is written in an attribute. -/
inductive DimLiteral where
  | fixed (value : Int) (span : Span)
  | dynamic (span : Span)
deriving DecidableEq, Repr

/-- The value of an attribute. -/
inductive AttrValue where
  | int (value : Int) (span : Span)
  | float (value : Binary64) (span : Span)
  | ident (name : Ident)
  | dynamic (span : Span)
  | dims (items : List DimLiteral) (span : Span)
deriving DecidableEq, Repr

/-- A named attribute. -/
structure Attr where
  name : Ident
  value : AttrValue
deriving DecidableEq, Repr

/-- An output of a named value. -/
structure Operand where
  name : Ident
  port : Nat
deriving DecidableEq, Repr

/-- An operation applied to operands, and the name bound to its outputs. -/
structure Statement where
  result : Option Ident
  op : Ident
  attrs : List Attr
  operands : List Operand
  span : Span
deriving DecidableEq, Repr

/-- Statements in execution order. -/
structure Program where
  statements : List Statement
  span : Span
deriving DecidableEq, Repr

/-- Where the value stands. -/
def AttrValue.span : AttrValue → Span
  | .int _ span | .float _ span | .dynamic span | .dims _ span => span
  | .ident name => name.span

namespace Operand

/-- A text cut at its last point, if it has one. -/
def cutLast? (cs : List Char) : Option (List Char × List Char) :=
  let suffix := (cs.reverse.takeWhile (· ≠ '.')).reverse
  if suffix.length < cs.length then
    some (cs.take (cs.length - suffix.length - 1), suffix)
  else none

/-- The operand that an identifier spells: an output by its number when a numeral follows the last
point and something precedes it, and otherwise the first output of the value of that name. -/
def ofIdent (id : Ident) : Operand :=
  match cutLast? id.name.toList with
  | some (base, suffix) =>
    match Numeral.readWord? suffix with
    | some port => if base.isEmpty then ⟨id, 0⟩ else ⟨⟨String.ofList base, id.span⟩, port⟩
    | none => ⟨id, 0⟩
  | none => ⟨id, 0⟩

end Operand

end TensorIR
