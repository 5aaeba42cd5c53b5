import TensorIR.Source.Grammar
import TensorIR.Source.Lexer
import TensorIR.Text.Quoted

/-!
# Reading a program

The reader goes through the tokens once, from left to right. What it has read of the current
statement is its state (`Pending`); there is one form of state for each position of the grammar,
holding exactly what has been read up to there. A token either leads to the next state or is
refused, and the first refused token is the only error there can be: the tokens before it could
still have become a program.

Stretches of the source that are no token are reported as well, and otherwise passed over.
-/

set_option autoImplicit false

namespace TensorIR

/-- The start of a statement: what it binds and applies. -/
structure Heading where
  result : Option Ident
  op : Ident
deriving DecidableEq, Repr

/-- What has been read of the current statement. -/
inductive Pending where
  /-- Nothing. -/
  | blank
  /-- A name, which is the operation unless an `=` follows. -/
  | named (name : Ident)
  | bound (result : Ident)
  | headed (heading : Heading)
  | attrStart (heading : Heading) (attrs : List Attr)
  | attrNamed (heading : Heading) (attrs : List Attr) (name : Ident)
  | attrOpen (heading : Heading) (attrs : List Attr) (name : Ident)
  | attrDone (heading : Heading) (attrs : List Attr)
  | attrsDone (heading : Heading) (attrs : List Attr)
  /-- The list of dimensions has started at the given offset. -/
  | dimsOpen (heading : Heading) (attrs : List Attr) (name : Ident) (start : Nat)
  | dimDone (heading : Heading) (attrs : List Attr) (name : Ident) (start : Nat)
      (dims : List DimLiteral)
  | dimNext (heading : Heading) (attrs : List Attr) (name : Ident) (start : Nat)
      (dims : List DimLiteral)
  | operandsOpen (heading : Heading) (attrs : List Attr)
  | operandDone (heading : Heading) (attrs : List Attr) (operands : List Operand)
  | operandNext (heading : Heading) (attrs : List Attr) (operands : List Operand)
  /-- All of it. -/
  | closed (statement : Statement)
deriving DecidableEq, Repr

/-- The offset at which a statement starts. -/
def Heading.start (h : Heading) : Nat := (h.result.getD h.op).span.start

/-- The statement with a heading, closed by a parenthesis that ends at an offset. -/
def Heading.statement (h : Heading) (attrs : List Attr) (operands : List Operand) (stop : Nat) :
    Statement where
  result := h.result
  op := h.op
  attrs := attrs
  operands := operands
  span := ⟨h.start, stop⟩

namespace Pending

/-- The position in the grammar that a state belongs to. -/
def position : Pending → Position
  | .blank => .statement
  | .named _ => .afterName
  | .bound _ => .opName
  | .headed _ => .afterOp
  | .attrStart _ _ => .attrName
  | .attrNamed _ _ _ => .attrEquals
  | .attrOpen _ _ _ => .attrValue
  | .attrDone _ _ => .afterAttr
  | .attrsDone _ _ => .operandList
  | .dimsOpen _ _ _ _ => .firstDim
  | .dimDone _ _ _ _ _ => .afterDim
  | .dimNext _ _ _ _ _ => .nextDim
  | .operandsOpen _ _ => .firstOperand
  | .operandDone _ _ _ => .afterOperand
  | .operandNext _ _ _ => .nextOperand
  | .closed _ => .afterStatement

/-- The state after a token, if the token may come. -/
def step (p : Pending) (l : Lexeme) : Option Pending :=
  match p, l.token with
  | .blank, .newline => some .blank
  | .blank, .ident name => some (.named ⟨name, l.span⟩)
  | .named name, .equals => some (.bound name)
  | .named name, .leftBracket => some (.attrStart ⟨none, name⟩ [])
  | .named name, .leftParen => some (.operandsOpen ⟨none, name⟩ [])
  | .bound result, .ident name => some (.headed ⟨some result, ⟨name, l.span⟩⟩)
  | .headed h, .leftBracket => some (.attrStart h [])
  | .headed h, .leftParen => some (.operandsOpen h [])
  | .attrStart h attrs, .ident name => some (.attrNamed h attrs ⟨name, l.span⟩)
  | .attrNamed h attrs name, .equals => some (.attrOpen h attrs name)
  | .attrOpen h attrs name, .int n => some (.attrDone h (attrs ++ [⟨name, .int n l.span⟩]))
  | .attrOpen h attrs name, .float v => some (.attrDone h (attrs ++ [⟨name, .float v l.span⟩]))
  | .attrOpen h attrs name, .question => some (.attrDone h (attrs ++ [⟨name, .dynamic l.span⟩]))
  | .attrOpen h attrs name, .ident value =>
    some (.attrDone h (attrs ++ [⟨name, .ident ⟨value, l.span⟩⟩]))
  | .attrOpen h attrs name, .leftBracket => some (.dimsOpen h attrs name l.span.start)
  | .attrDone h attrs, .comma => some (.attrStart h attrs)
  | .attrDone h attrs, .rightBracket => some (.attrsDone h attrs)
  | .attrsDone h attrs, .leftParen => some (.operandsOpen h attrs)
  | .dimsOpen h attrs name start, .int n => some (.dimDone h attrs name start [.fixed n l.span])
  | .dimsOpen h attrs name start, .question =>
    some (.dimDone h attrs name start [.dynamic l.span])
  | .dimsOpen h attrs name start, .rightBracket =>
    some (.attrDone h (attrs ++ [⟨name, .dims [] ⟨start, l.span.stop⟩⟩]))
  | .dimDone h attrs name start dims, .comma => some (.dimNext h attrs name start dims)
  | .dimDone h attrs name start dims, .rightBracket =>
    some (.attrDone h (attrs ++ [⟨name, .dims dims ⟨start, l.span.stop⟩⟩]))
  | .dimNext h attrs name start dims, .int n =>
    some (.dimDone h attrs name start (dims ++ [.fixed n l.span]))
  | .dimNext h attrs name start dims, .question =>
    some (.dimDone h attrs name start (dims ++ [.dynamic l.span]))
  | .operandsOpen h attrs, .ident name =>
    some (.operandDone h attrs [.ofIdent ⟨name, l.span⟩])
  | .operandsOpen h attrs, .rightParen => some (.closed (h.statement attrs [] l.span.stop))
  | .operandDone h attrs operands, .comma => some (.operandNext h attrs operands)
  | .operandDone h attrs operands, .rightParen =>
    some (.closed (h.statement attrs operands l.span.stop))
  | .operandNext h attrs operands, .ident name =>
    some (.operandDone h attrs (operands ++ [.ofIdent ⟨name, l.span⟩]))
  | .closed _, .newline => some .blank
  | _, _ => none

/-- The statement that is complete. -/
def finished : Pending → List Statement
  | .closed s => [s]
  | _ => []

/-- The program may end here. -/
def mayEnd : Pending → Bool
  | .blank | .closed _ => true
  | _ => false

end Pending

/-- Where reading stopped: at a token, or at the end of the input when there was none left. -/
structure Stop where
  found : Option Lexeme
  position : Position
deriving DecidableEq, Repr

/-- Read tokens in a state, after some complete statements. -/
def readFrom : List Statement → Pending → List Lexeme → Except Stop (List Statement)
  | done, p, [] => if p.mayEnd then .ok (done ++ p.finished) else .error ⟨none, p.position⟩
  | done, p, l :: ls =>
    match p.step l with
    | some next => readFrom (done ++ p.finished) next ls
    | none => .error ⟨some l, p.position⟩

/-- The statements that tokens form. -/
def readStatements (ls : List Lexeme) : Except Stop (List Statement) := readFrom [] .blank ls

/-- The span from the first of some tokens to the last, or the end of the source if there are
none. -/
def coverage (ls : List Lexeme) (length : Nat) : Span :=
  match ls.head?, ls.getLast? with
  | some first, some last => ⟨first.span.start, last.span.stop⟩
  | _, _ => ⟨length, length⟩

/-- What is wrong with the text of a program. -/
inductive SourceError where
  /-- A stretch that is no token. -/
  | badText (text : List Char) (span : Span)
  /-- A token, or the end of the input, where something else has to come. -/
  | unexpected (found : Option Token) (position : Position) (span : Span)
deriving DecidableEq, Repr

namespace SourceError

def span : SourceError → Span
  | .badText _ span => span
  | .unexpected _ _ span => span

def message : SourceError → String
  | .badText text _ => s!"unexpected character: {Quoted.quote text}"
  | .unexpected found position _ =>
    let found := match found with
      | some t => s!"'{t.render}'"
      | none => "end of input"
    s!"found {found} expected {position.expectation}"

end SourceError

/-- A program, if there is one, and what is wrong with its text. -/
structure Parse where
  program : Option Program
  errors : List SourceError
deriving DecidableEq, Repr

/-- Read the text of a program. Bad stretches come first among the errors, and do not keep a
program from being found. -/
def parse (source : List Char) : Parse :=
  let scan := Source.scan source
  let length := Source.byteLength source
  let bad := scan.bad.map fun b => SourceError.badText b.text b.span
  match readStatements scan.lexemes with
  | .ok statements => ⟨some ⟨statements, coverage scan.lexemes length⟩, bad⟩
  | .error stop =>
    let span := match stop.found with
      | some l => l.span
      | none => ⟨length, length⟩
    ⟨none, bad ++ [.unexpected (stop.found.map Lexeme.token) stop.position span]⟩

end TensorIR
