/-!
# JSON documents

A snapshot of a body is written as JSON in two layouts. The compact one has no blanks at all and is
what gets fingerprinted; the pretty one puts every item and every field on a line of its own,
indented by two blanks per level. Both write the same document: fields in the order given, numbers
as decimal integers, and strings with the characters escaped that JSON requires and no others.
-/

set_option autoImplicit false

namespace TensorIR

/-- A JSON document whose numbers are integers. -/
inductive Json where
  | null
  | number (value : Int)
  | string (text : String)
  | array (items : List Json)
  | object (fields : List (String × Json))

namespace Json

/-- A code point below 16 as a lowercase hexadecimal digit. -/
def hexDigit (n : Nat) : Char := Nat.digitChar n

/-- How one character is written inside a string: quote, backslash and controls are escaped. -/
def escape (c : Char) : List Char :=
  if c = '"' then ['\\', '"']
  else if c = '\\' then ['\\', '\\']
  else if c.toNat = 0x8 then ['\\', 'b']
  else if c.toNat = 0xc then ['\\', 'f']
  else if c = '\n' then ['\\', 'n']
  else if c = '\r' then ['\\', 'r']
  else if c = '\t' then ['\\', 't']
  else if c.toNat < 0x20 then
    ['\\', 'u', '0', '0', hexDigit (c.toNat / 16), hexDigit (c.toNat % 16)]
  else [c]

/-- A string between quotes. -/
def quoted (text : String) : String := String.ofList ('"' :: text.toList.flatMap escape ++ ['"'])

/-! ## Without blanks -/

mutual

/-- The document without blanks. -/
def compact : Json → String
  | .null => "null"
  | .number value => toString value
  | .string text => quoted text
  | .array items => "[" ++ compactItems items ++ "]"
  | .object fields => "\x7b" ++ compactFields fields ++ "\x7d"

/-- Items separated by commas. -/
def compactItems : List Json → String
  | [] => ""
  | [item] => compact item
  | item :: items => compact item ++ "," ++ compactItems items

/-- Fields separated by commas. -/
def compactFields : List (String × Json) → String
  | [] => ""
  | [(name, value)] => quoted name ++ ":" ++ compact value
  | (name, value) :: fields => quoted name ++ ":" ++ compact value ++ "," ++ compactFields fields

end

/-! ## One item a line -/

/-- The start of a line at a level. -/
def indent (level : Nat) : String := String.ofList ('\n' :: List.replicate (2 * level) ' ')

mutual

/-- The document with one item or field a line, its own level being given. -/
def prettyAt (level : Nat) : Json → String
  | .null => "null"
  | .number value => toString value
  | .string text => quoted text
  | .array [] => "[]"
  | .array items => "[" ++ prettyItems (level + 1) items ++ indent level ++ "]"
  | .object [] => "\x7b\x7d"
  | .object fields => "\x7b" ++ prettyFields (level + 1) fields ++ indent level ++ "\x7d"

/-- Items on lines of their own. -/
def prettyItems (level : Nat) : List Json → String
  | [] => ""
  | [item] => indent level ++ prettyAt level item
  | item :: items => indent level ++ prettyAt level item ++ "," ++ prettyItems level items

/-- Fields on lines of their own. -/
def prettyFields (level : Nat) : List (String × Json) → String
  | [] => ""
  | [(name, value)] => indent level ++ quoted name ++ ": " ++ prettyAt level value
  | (name, value) :: fields =>
    indent level ++ quoted name ++ ": " ++ prettyAt level value ++ "," ++
      prettyFields level fields

end

/-- The document with one item or field a line. -/
def pretty (document : Json) : String := prettyAt 0 document

end Json

end TensorIR
