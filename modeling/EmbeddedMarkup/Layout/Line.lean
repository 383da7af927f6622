import EmbeddedMarkup.Layout.Indent
import EmbeddedMarkup.Pattern.Reading

/-!
# Lines

A line is a margin and the items on it. With it go the number of columns it fills so far and the
place where it may be broken: at which item, how many columns lie before it, and which margin the
broken-off part gets.
-/

namespace EmbeddedMarkup.Layout

/-- The indentation of a line: a level, which is negative for no indentation at all, and further
columns. -/
structure Margin where
  level : Int := -1
  column : Int := 0
  deriving DecidableEq

structure Break where
  /-- The number of items before the break; zero for no break. -/
  index : Nat := 0
  count : Int := 0
  margin : Margin := {}
  deriving DecidableEq

structure Line where
  margin : Margin := {}
  count : Int := 0
  wrap : Break := {}
  items : List Text := []
  deriving DecidableEq

namespace Line

/-- Whether there is nothing on the line. An empty item counts as something. -/
def isEmpty (l : Line) : Bool := l.items.isEmpty

def blank (margin : Margin) (width : Int) : Line := { margin, count := width }

/-- Gives a line a margin that fills `width` columns, as long as nothing is on it. -/
def setMargin (l : Line) (margin : Margin) (width : Int) : Line :=
  if l.isEmpty then { l with margin, count := width } else l

def countAfter (count : Int) (item : Text) : Int :=
  if item.contains '\n' then (item.reverse.takeWhile (· != '\n')).length + 1
  else count + item.length

def push (l : Line) (item : Text) : Line :=
  { l with items := l.items ++ [item], count := countAfter l.count item }

def last? (l : Line) : Option Text := l.items.getLast?

def pop (l : Line) : Option Text × Line :=
  match l.last? with
  | none => (none, l)
  | some item => (some item, { l with items := l.items.dropLast, count := l.count - item.length })

def item? (l : Line) (i : Int) : Option Text := itemAt? l.items i

def mentions (l : Line) (needle : Text) : Bool := l.items.any (Text.includes needle)

/-- Whether a pattern, given as a text, matches in an item. On an empty line the pattern is not even
read. -/
def hasMatch (l : Line) (pattern : Text) : Except Pattern.Fault Bool :=
  if l.isEmpty then .ok false
  else (Pattern.ofText pattern false).map fun p => l.items.any p.occursIn

def trailingSpaces (l : Line) : Nat := (l.items.reverse.takeWhile (· == [' '])).length

def trim (l : Line) : Line :=
  let n := l.trailingSpaces
  { l with items := l.items.take (l.items.length - n), count := l.count - n }

def outdent (l : Line) (size : Int) : Line :=
  if 0 < l.margin.level then
    { l with margin := { l.margin with level := l.margin.level - 1 }, count := l.count - size }
  else l

def outdentBreak (l : Line) : Line :=
  if 0 < l.wrap.margin.level then
    { l with wrap := { l.wrap with
        margin := { l.wrap.margin with level := l.wrap.margin.level - 1 } } }
  else l

/-- The text of a line, and the table of indentations after asking. An empty line has no further
columns and is indented only if `indentEmpty`. -/
def text (l : Line) (i : Indent) (indentEmpty : Bool) : Except IndentError (Text × Indent) :=
  if l.isEmpty then
    if indentEmpty then i.text l.margin.level 0 else .ok ([], i)
  else
    (i.text l.margin.level l.margin.column).map fun e => (e.1 ++ l.items.flatten, e.2)

end Line

end EmbeddedMarkup.Layout
