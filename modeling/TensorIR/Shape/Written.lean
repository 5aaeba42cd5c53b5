import TensorIR.Shape
import TensorIR.Text.Blank

/-!
# Written shapes

A shape can be given as text, for instance on the command line: dimensions separated by commas,
each a question mark or the numeral of a word, with white space around any of them. Brackets around
the list may be left out, and are not counted: every opening bracket at the front and every closing
bracket at the back is dropped. Nothing at all is the shape of a scalar.

The numeral of the largest word is accepted, and denotes a dynamic dimension as that word does.
-/

set_option autoImplicit false

namespace TensorIR.Shape

/-- A list cut at every occurrence of a separator; one more piece than there are separators. -/
def splitAt (separator : Char) : List Char → List (List Char)
  | [] => [[]]
  | c :: cs =>
    if c = separator then [] :: splitAt separator cs
    else
      match splitAt separator cs with
      | [] => [[c]]
      | piece :: pieces => (c :: piece) :: pieces

/-- The list between the brackets, or the whole text when there are none, without white space at
the ends. -/
def unbracket (cs : List Char) : List Char :=
  let opened := (Blank.trim cs).dropWhile (· == '[')
  let closed := (opened.reverse.dropWhile (· == ']')).reverse
  Blank.trim closed

/-- A dimension without white space around it. -/
def readDim? (cs : List Char) : Option Dim :=
  if cs = ['?'] then some .dynamic else (Numeral.readWord? cs).map Dim.ofCode

/-- An item of a written shape that is no dimension. -/
structure BadDimension where
  item : String
  text : String
deriving DecidableEq, Repr

/-- What is reported about a text that is no shape. -/
def BadDimension.message (e : BadDimension) : String :=
  s!"invalid dimension '{e.item}' in shape '{e.text}'"

/-- The dimensions that a list of items denotes, or the first item that denotes none. -/
def readDims : List (List Char) → Except (List Char) (List Dim)
  | [] => .ok []
  | item :: items =>
    match readDim? (Blank.trim item) with
    | none => .error (Blank.trim item)
    | some d => (readDims items).map (d :: ·)

/-- The shape that a text denotes. -/
def read (text : String) : Except BadDimension Shape :=
  let inner := unbracket text.toList
  if inner.isEmpty then .ok scalar
  else
    match readDims (splitAt ',' inner) with
    | .ok dims => .ok ⟨dims⟩
    | .error item => .error ⟨String.ofList item, text⟩

end TensorIR.Shape
