import TensorIR.Source.Program

/-!
# The grammar, position by position

The textual form nests no deeper than a list of dimensions inside an attribute, so where a reader
stands in it is one of sixteen positions. What may come next depends on the position alone; a
message about a token that may not come says what might have (`Position.expected`).

```
program   = newline* (statement (newline+ statement)*)? newline*
statement = (ident '=')? ident attrs? '(' (ident (',' ident)*)? ')'
attrs     = '[' attr (',' attr)* ']'
attr      = ident '=' (int | float | '?' | ident | '[' (dim (',' dim)*)? ']')
dim       = int | '?'
```
-/

set_option autoImplicit false

namespace TensorIR

/-- Where a reader stands in the grammar. -/
inductive Position where
  /-- At the start of the program or of a line. -/
  | statement
  /-- After the first name of a statement. -/
  | afterName
  /-- After the `=` of a statement. -/
  | opName
  /-- After the operation that follows the `=`. -/
  | afterOp
  /-- Where an attribute starts. -/
  | attrName
  /-- After the name of an attribute. -/
  | attrEquals
  /-- After the `=` of an attribute. -/
  | attrValue
  /-- After the value of an attribute. -/
  | afterAttr
  /-- After the attributes. -/
  | operandList
  /-- Where the first dimension or the end of an empty list stands. -/
  | firstDim
  /-- After a dimension. -/
  | afterDim
  /-- Where a further dimension starts. -/
  | nextDim
  /-- Where the first operand or the end of an empty list stands. -/
  | firstOperand
  /-- After an operand. -/
  | afterOperand
  /-- Where a further operand starts. -/
  | nextOperand
  /-- After a statement. -/
  | afterStatement
deriving DecidableEq, Repr

/-- What may come next, as far as a message tells things apart. -/
inductive Expectation where
  | newline
  | ident
  | equals
  | comma
  | leftBracket
  | rightBracket
  | leftParen
  | rightParen
  /-- A literal: a number or a question mark, as the position admits. -/
  | literal
  | endOfInput
deriving DecidableEq, Repr

/-- What may come at a position, in the order in which a message lists it. -/
def Position.expected : Position → List Expectation
  | .statement => [.newline, .ident, .endOfInput]
  | .afterName => [.equals, .leftBracket, .leftParen]
  | .opName => [.ident]
  | .afterOp => [.leftBracket, .leftParen]
  | .attrName => [.ident]
  | .attrEquals => [.equals]
  | .attrValue => [.literal, .leftBracket, .ident]
  | .afterAttr => [.comma, .rightBracket]
  | .operandList => [.leftParen]
  | .firstDim => [.literal, .rightBracket]
  | .afterDim => [.comma, .rightBracket]
  | .nextDim => [.literal]
  | .firstOperand => [.ident, .rightParen]
  | .afterOperand => [.comma, .rightParen]
  | .nextOperand => [.ident]
  | .afterStatement => [.newline, .endOfInput]

def Expectation.render : Expectation → String
  | .newline => "'<newline>'"
  | .ident => "'<ident>'"
  | .equals => "'='"
  | .comma => "','"
  | .leftBracket => "'['"
  | .rightBracket => "']'"
  | .leftParen => "'('"
  | .rightParen => "')'"
  | .literal => "something else"
  | .endOfInput => "end of input"

/-- Alternatives in a sentence: commas between them, and `or` before the last. -/
def alternatives : List String → String
  | [] => ""
  | [last] => last
  | [first, last] => first ++ ", or " ++ last
  | first :: rest => first ++ ", " ++ alternatives rest

/-- What may come at a position, in words. -/
def Position.expectation (p : Position) : String :=
  alternatives (p.expected.map Expectation.render)

end TensorIR
