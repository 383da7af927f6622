import EmbeddedMarkup.Text.CharacterClass

/-!
# Quoted text

The written form of a text as a literal: single quotes, or double quotes for a text that has a
single quote and no double one. The quote, the backslash and every character that is not printable
are written as escapes, the latter with two, four or eight hexadecimal digits.
-/

namespace EmbeddedMarkup.Text

def hexDigits (width n : Nat) : Text :=
  let ds := Nat.toDigits 16 n
  List.replicate (width - ds.length) '0' ++ ds

/-- The quote that needs the fewest escapes: the double quote only for a text with single quotes and
no double ones. -/
def quoteFor (t : Text) : Char := if t.contains '\'' && !t.contains '"' then '"' else '\''

def escapeCode (n : Nat) : Text :=
  if n < 0x100 then '\\' :: 'x' :: hexDigits 2 n
  else if n < 0x10000 then '\\' :: 'u' :: hexDigits 4 n
  else '\\' :: 'U' :: hexDigits 8 n

def quotedChar (quote c : Char) : Text :=
  if c = quote || c = '\\' then ['\\', c]
  else if c = '\t' then ['\\', 't']
  else if c = '\n' then ['\\', 'n']
  else if c = '\r' then ['\\', 'r']
  else if isPrintable c then [c]
  else escapeCode c.toNat

def quoted (t : Text) : Text :=
  let quote := quoteFor t
  quote :: t.flatMap (quotedChar quote) ++ [quote]

def quotedBytes (bs : List UInt8) : Text :=
  let quote := quoteFor (bs.map fun b => Char.ofNat b.toNat)
  let char (b : UInt8) : Text :=
    if 0x80 ≤ b then escapeCode b.toNat else quotedChar quote (Char.ofNat b.toNat)
  'b' :: quote :: bs.flatMap char ++ [quote]

def inParentheses : List Text → Text
  | [] => ['(', ')']
  | [t] => '(' :: t ++ [',', ')']
  | ts => '(' :: join [',', ' '] ts ++ [')']

end EmbeddedMarkup.Text
