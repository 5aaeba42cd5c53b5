import TensorIR.Binary64.Text
import TensorIR.Source.Span

/-!
# Tokens

The words of the textual form of a program: seven symbols, two kinds of numbers, identifiers and
line breaks. A token carries what it means; where it stood is kept beside it, in a lexeme.
-/

set_option autoImplicit false

namespace TensorIR

/-- A word of the textual form. -/
inductive Token where
  | leftParen
  | rightParen
  | leftBracket
  | rightBracket
  | comma
  | equals
  /-- A dynamic dimension. -/
  | question
  /-- A number with a fraction or an exponent. -/
  | float (value : Binary64)
  /-- A number without either. -/
  | int (value : Int)
  | ident (name : String)
  /-- One or more line breaks in a row. -/
  | newline
deriving DecidableEq, Repr

/-- The token as a message shows it. Identifiers and line breaks are shown by their kind. -/
def Token.render : Token → String
  | .leftParen => "("
  | .rightParen => ")"
  | .leftBracket => "["
  | .rightBracket => "]"
  | .comma => ","
  | .equals => "="
  | .question => "?"
  | .float value => value.render
  | .int value => toString value
  | .ident _ => "<ident>"
  | .newline => "<newline>"

/-- A token and where it stands. -/
structure Lexeme where
  token : Token
  span : Span
deriving DecidableEq, Repr

end TensorIR
