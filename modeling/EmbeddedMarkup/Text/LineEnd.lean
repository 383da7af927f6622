import EmbeddedMarkup.Text.Basic

/-!
# Line ends

A line ends with a line feed, a carriage return, or a carriage return and a line feed together.
Where text is taken apart into lines, a few more characters end a line: the vertical tab, the form
feed, three of the separators, the next-line control, and the line and paragraph separators.
-/

namespace EmbeddedMarkup.Text

def unifyLineEnds : Text → Text
  | [] => []
  | '\r' :: '\n' :: t => '\n' :: unifyLineEnds t
  | '\r' :: t => '\n' :: unifyLineEnds t
  | c :: t => c :: unifyLineEnds t

def firstLineEnd? : Text → Option Text
  | [] => none
  | '\r' :: '\n' :: _ => some ['\r', '\n']
  | c :: t => if c = '\r' || c = '\n' then some [c] else firstLineEnd? t

def isLineBreak (c : Char) : Bool :=
  c == '\n' || c == '\r' || c == '\x0b' || c == '\x0c' || ('\x1c' ≤ c && c ≤ '\x1e') ||
    c == '\x85' ||
    c == '\u2028' || c == '\u2029'

/-- The number of line breaks, where a carriage return and a line feed together count once. -/
def lineBreaks : Text → Nat
  | [] => 0
  | '\r' :: '\n' :: t => lineBreaks t + 1
  | c :: t => if isLineBreak c then lineBreaks t + 1 else lineBreaks t

def lineCount (t : Text) : Nat :=
  match t.getLast? with
  | none => 0
  | some c => if isLineBreak c then lineBreaks t else lineBreaks t + 1

end EmbeddedMarkup.Text
