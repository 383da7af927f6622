import EmbeddedMarkup.Text.Basic

/-!
# Positions in a source

A syntax tree gives the place of a node by line and column, where lines are counted from one and
columns are counted in the bytes of the line's UTF-8 form. `Span.range` turns such a place into a
range of character offsets.

A column that falls inside a character has no offset, and neither has a line that does not exist. A
line or a column below the first counts from the end, as an index does.
-/

namespace EmbeddedMarkup.Source

structure Line where
  offset : Nat
  text : Text
  deriving DecidableEq, Repr

def linesFrom (offset : Nat) : List Text → List Line
  | [] => []
  | t :: ts => { offset, text := t } :: linesFrom (offset + t.length + 1) ts

def lines (source : Text) : List Line := linesFrom 0 (Text.splitOn '\n' source)

inductive PositionError where
  | noSuchLine
  | insideCharacter
  deriving DecidableEq, Repr

def PositionError.message : PositionError → Text
  | noSuchLine => "list index out of range".toList
  | insideCharacter => []

def byteLength (t : Text) : Nat := t.foldr (fun c n => c.utf8Size + n) 0

/-- The number of characters that the first `n` bytes of a text hold; none if the last of them is
cut short. -/
def charsInBytes? : (n : Nat) → Text → Option Nat
  | _, [] => some 0
  | 0, _ :: _ => some 0
  | n + 1, c :: t =>
      if c.utf8Size ≤ n + 1 then (charsInBytes? (n + 1 - c.utf8Size) t).map (· + 1) else none

def bytesBefore (line : Text) (column : Int) : Nat :=
  if 0 ≤ column then column.toNat else (column + byteLength line).toNat

/-- The offset of a place given by the index of its line and by its byte column. -/
def offsetAt (ls : List Line) (index column : Int) : Except PositionError Nat :=
  match itemAt? ls index with
  | none => .error .noSuchLine
  | some line =>
      match charsInBytes? (bytesBefore line.text column) line.text with
      | none => .error .insideCharacter
      | some n => .ok (line.offset + n)

/-- The place of a node, with lines from one and byte columns from zero. An end that is not known is
the same as the start. -/
structure Span where
  line : Int := 1
  column : Int := 0
  endLine : Option Int := none
  endColumn : Option Int := none
  deriving DecidableEq, Repr, Inhabited

def Span.range (s : Span) (ls : List Line) : Except PositionError (Nat × Nat) := do
  let first := s.line - 1
  let last := (s.endLine.map (· - 1)).getD first
  let b ← offsetAt ls first s.column
  let e ← offsetAt ls last (s.endColumn.getD s.column)
  return (b, e)

/-- The characters of a source from one offset to another, none if the second is not greater. -/
def slice (source : Text) (b e : Nat) : Text := (source.drop b).take (e - b)

end EmbeddedMarkup.Source
