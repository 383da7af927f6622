import EmbeddedMarkup.Text.Basic

/-!
# Indentation

The indentation of a line is a base text, a number of levels and some further columns. The part
after the base depends only on the number of columns it fills, so it is looked up in a table that
grows, one column at a time, as far as columns are asked for. A negative number of columns, which a
negative size of a level gives, counts back from the end of the table.
-/

namespace EmbeddedMarkup.Layout

inductive IndentError where
  /-- A number of repetitions is too far from zero to be an index. -/
  | countNotIndex
  /-- A repeated text has more characters than can be counted. -/
  | countless
  | tooLong
  /-- A number of columns is too far from zero to be an index. -/
  | columnsNotIndex
  /-- A number of columns points before the start of the table. -/
  | noEntry
  deriving DecidableEq

def IndentError.message : IndentError → Text
  | countNotIndex => "cannot fit 'int' into an index-sized integer".toList
  | countless => "repeated string is too long".toList
  | tooLong => []
  | columnsNotIndex => "cannot fit 'int' into an index-sized integer".toList
  | noEntry => "list index out of range".toList

/-- Whether a number can be an index: it fits into sixty-four bits with a sign. -/
def isIndex (n : Int) : Bool := decide (-0x8000000000000000 ≤ n ∧ n < 0x8000000000000000)

def maxLength : Nat := 0x1000000000

def checkRepeat (n : Nat) (count : Int) : Except IndentError Unit :=
  if !isIndex count then .error .countNotIndex
  else if 0x8000000000000000 ≤ n * count.toNat ∧ count.toNat ≠ 1 then .error .countless
  else if maxLength < n * count.toNat then .error .tooLong
  else .ok ()

structure IndentLevel where
  size : Int
  char : Text
  tabs : Bool

namespace IndentLevel

def unit (l : IndentLevel) : Text := if l.tabs then l.char else Text.timesInt l.size l.char

/-- The text that fills `n` columns: whole levels, then spaces. The quotient is exact: no table that
fits into memory has an entry for so many columns that it would be rounded. -/
def fill (l : IndentLevel) (n : Nat) : Text :=
  if l.size ≠ 0 ∧ l.size ≤ n then
    let levels := Int.fdiv n l.size
    Text.timesInt levels l.unit ++ Text.timesInt (n - levels * l.size) [' ']
  else
    Text.times n [' ']

@[simp] theorem fill_zero (l : IndentLevel) : l.fill 0 = [] := by
  unfold fill
  split <;> simp [Text.timesInt, Text.times]

end IndentLevel

/-- The texts that fill no column, one column and so on, as far as columns have been asked for. -/
structure IndentTable (l : IndentLevel) where
  entries : List Text
  entries_eq : entries = (List.range entries.length).map l.fill

namespace IndentTable

variable {l : IndentLevel}

def start : IndentTable l := ⟨[[]], by simp⟩

def addColumn (t : IndentTable l) : IndentTable l where
  entries := t.entries ++ [l.fill t.entries.length]
  entries_eq := by simp [List.range_succ, ← t.entries_eq]

def addColumns : Nat → IndentTable l → IndentTable l
  | 0, t => t
  | k + 1, t => addColumns k t.addColumn

def reach (t : IndentTable l) (n : Int) : IndentTable l :=
  t.addColumns (n + 1 - t.entries.length).toNat

end IndentTable

structure Indent extends IndentLevel where
  base : Text
  table : IndentTable toIndentLevel := .start

namespace Indent

/-- The table for levels of `size` columns, each written with `char`, or as a single `char` if it is
a tab. A positive starting level replaces the base text. -/
def make (size : Int) (char : Text) (tabs : Bool) (level : Int) (base : Text) : Indent :=
  let plain : Indent := { size, char, tabs, base }
  if 0 < level then { plain with base := Text.timesInt level plain.unit } else plain

/-- Whether the texts of the table can be written: the one of a level, and the base if it is made of
levels. -/
def check (size : Int) (char : Text) (tabs : Bool) (level : Int) : Except IndentError Unit := do
  if !tabs then checkRepeat char.length size
  if 0 < level then
    checkRepeat (if tabs then char.length else char.length * size.toNat) level

/-- The number of columns of a line with the given level and further columns. A negative level has
no base. -/
def width (i : Indent) (level column : Int) : Int :=
  (if level < 0 then 0 else (i.base.length : Int)) + level * i.size + column

/-- The entry of the table for a number of columns, and the table after asking. -/
def entry (i : Indent) (n : Int) : Except IndentError (Text × Indent) :=
  let table := i.table.reach n
  match itemAt? table.entries n with
  | some t => .ok (t, { i with table })
  | none => .error (if isIndex n then .noEntry else .columnsNotIndex)

/-- The indentation of a line with the given level and further columns, and the table after
asking. -/
def text (i : Indent) (level column : Int) : Except IndentError (Text × Indent) :=
  if level < 0 then i.entry column
  else (i.entry (column + level * i.size)).map fun e => (i.base ++ e.1, e.2)

end Indent

end EmbeddedMarkup.Layout
