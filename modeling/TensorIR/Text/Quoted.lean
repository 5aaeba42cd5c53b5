import TensorIR.Text.Glyphless

/-!
# Quoted text

A message that shows a piece of the source shows it between double quotes, and in such a way that
the reader can tell every character: the quote and the backslash are escaped by a backslash, the
four usual controls have a letter, and any other character without a glyph is written by its code
point in braces. An apostrophe stands for itself, because the quotes are double.
-/

set_option autoImplicit false

namespace TensorIR.Quoted

/-- A code point in lowercase hexadecimal, without leading zeros. -/
def hexadecimal (n : Nat) : List Char := Nat.toDigits 16 n

/-- How one character is written between the quotes. -/
def escape (c : Char) : List Char :=
  if c = '"' then ['\\', '"']
  else if c = '\\' then ['\\', '\\']
  else if c = '\n' then ['\\', 'n']
  else if c = '\r' then ['\\', 'r']
  else if c = '\t' then ['\\', 't']
  else if c.toNat = 0 then ['\\', '0']
  else if Glyphless.isGlyphless c then
    ['\\', 'u', '\x7b'] ++ hexadecimal c.toNat ++ ['\x7d']
  else [c]

/-- The text between double quotes, every character escaped as needed. -/
def quote (cs : List Char) : String :=
  String.ofList ('"' :: cs.flatMap escape ++ ['"'])

end TensorIR.Quoted
