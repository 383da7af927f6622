import EmbeddedMarkup.Layout.Line
import EmbeddedMarkup.Style.Basic

/-!
# Pages

A page is the list of lines written so far. Items are added to the current line, which is the last
one; a line that becomes too long is broken at its break. The page also keeps the margin of the line
to come, and whether a space is due before the next item.

Operations are functions on pages. The one that can go wrong while it changes the page, `addItem`,
has the page after the change as its value in any case; `lacksItem` says whether it went wrong,
which takes a break that lies beyond the end of a shortened line.
-/

namespace EmbeddedMarkup.Layout

/-- The lines written so far, and how to write on. -/
structure Page where
  indent : Indent
  /-- Whether line ends that are asked for are left out. -/
  raw : Bool := false
  endWithNewline : Bool
  indentSize : Int
  /-- The longest line that is not broken; zero for no limit. -/
  wrapLineLength : Int
  indentEmptyLines : Bool
  above : List Line := []
  current : Line
  next : Margin := {}
  nextCount : Int := 0
  spaceBefore : Bool := false
  /-- Whether the line must not be broken at that space. -/
  nonBreaking : Bool := false
  wrapped : Bool := false

namespace Page

def checkStyle (style : Style.General) : Except IndentError Unit :=
  Indent.check style.indentSize style.indentChar style.indentWithTabs style.indentLevel

def ofStyle (style : Style.General) (base : Text) : Page :=
  let indent := Indent.make style.indentSize style.indentChar style.indentWithTabs
    style.indentLevel base
  { indent
    endWithNewline := style.endWithNewline
    indentSize := style.indentSize
    wrapLineLength := style.wrapLineLength
    indentEmptyLines := style.indentEmptyLines
    current := .blank {} (indent.width (-1) 0) }

def marginWidth (p : Page) (m : Margin) : Int := p.indent.width m.level m.column

def lines (p : Page) : List Line := p.above.reverse ++ [p.current]

def lineCount (p : Page) : Nat := p.above.length + 1

def isEmpty (p : Page) : Bool := p.above.isEmpty && p.current.isEmpty

def atLineStart (p : Page) : Bool := p.current.isEmpty

/-- Whether there is an empty line above the empty current line, or nothing at all. -/
def atBlankLine (p : Page) : Bool :=
  p.isEmpty || (p.current.isEmpty && p.above.head?.any Line.isEmpty)

def startLine (p : Page) : Page :=
  { p with
    above := p.current :: p.above
    current := .blank p.next (p.marginWidth p.next) }

/-- Whether a line end that is asked for is given: never at the very start, and after another line
end only if it is forced. -/
def allowsNewline (p : Page) (force : Bool) : Bool := !(p.isEmpty || (!force && p.atLineStart))

def addNewline (p : Page) (force : Bool) : Page :=
  if p.allowsNewline force && !p.raw then p.startLine else p

/-- Sets the margin of the lines to come, and of the current line if nothing is on it. The first
line gets no margin but the base. -/
def setMargin (p : Page) (m : Margin) : Page :=
  let here : Margin := if p.above.isEmpty then { level := 0, column := 0 } else m
  { p with
    next := m
    nextCount := p.marginWidth m
    current := p.current.setMargin here (p.marginWidth here) }

def setBreak (p : Page) : Page :=
  if p.wrapLineLength = 0 then p
  else
    { p with current := { p.current with
        wrap := { index := p.current.items.length, count := p.current.count, margin := p.next } } }

def shouldBreak (p : Page) : Bool :=
  p.current.wrap.index != 0 && decide (p.wrapLineLength < p.current.count) &&
    decide (p.nextCount < p.current.wrap.count)

def dropSpace (l : Line) : Line :=
  match l.items with
  | item :: rest => if item = [' '] then { l with items := rest, count := l.count - 1 } else l
  | [] => l

/-- The two parts of the current line when it is broken: what stays and what moves down. -/
def brokenLine (p : Page) : Line × Line :=
  let l := p.current
  let b := l.wrap
  let fresh := (Line.blank p.next (p.marginWidth p.next)).setMargin b.margin
    (p.marginWidth b.margin)
  ({ l with items := l.items.take b.index, count := b.count },
    { fresh with items := l.items.drop b.index, count := fresh.count + (l.count - b.count) })

/-- What is left of the current line when it is broken while line ends are left out. -/
def brokenRaw (l : Line) : Line :=
  { l with items := (l.items.drop l.wrap.index).take l.wrap.index, count := l.wrap.count }

def movedLine (p : Page) : Line := if p.raw then brokenRaw p.current else p.brokenLine.2

def breakLine (p : Page) : Page :=
  if p.raw then { p with current := dropSpace (brokenRaw p.current) }
  else
    { p with
      above := p.brokenLine.1 :: p.above
      current := dropSpace p.brokenLine.2 }

def addSpace (p : Page) : Page :=
  if p.spaceBefore && !p.atLineStart then
    let p := if p.nonBreaking then p else p.setBreak
    { p with current := p.current.push [' '], spaceBefore := false }
  else { p with spaceBefore := false }

def pushItem (p : Page) (item : Text) : Page :=
  let p := p.addSpace
  { p with current := p.current.push item, spaceBefore := false, nonBreaking := false }

def lacksItem (p : Page) (item : Text) : Bool :=
  let p := p.pushItem item
  p.shouldBreak && p.movedLine.items.isEmpty

/-- Adds an item, with the space that is due before it, and breaks the line if it is too long. -/
def addItem (p : Page) (item : Text) : Page :=
  let q := p.pushItem item
  if q.shouldBreak then
    if q.movedLine.items.isEmpty then q.breakLine else { q.breakLine with wrapped := true }
  else { q with wrapped := false }

def startLines : Nat → Page → Page
  | 0, p => p
  | n + 1, p => startLines n p.startLine

/-- Adds a token as it is: its line ends, the blanks before it and its text, without indentation. -/
def addRaw (p : Page) (newlines : Nat) (blank text : Text) : Page :=
  let p := startLines newlines p
  let bare : Margin := { level := -1, column := 0 }
  { p with
    current := ((p.current.setMargin bare (p.marginWidth bare)).push blank).push text
    spaceBefore := false
    nonBreaking := false
    wrapped := false }

/-- How often a line is moved to the left when the lines from `index` on are: an index below zero
counts from the end, and then the lines are gone through from there to the end and once more from
the start. -/
def visits (index : Int) (count i : Nat) : Nat :=
  (if index ≤ i then 1 else 0) + (if index + count ≤ i then 1 else 0) * (if index < 0 then 1 else 0)

def outdentTimes (size : Int) : Nat → Line → Line
  | 0, l => l
  | n + 1, l => outdentTimes size n (l.outdent size)

/-- Moves the lines from the given one on, and what follows the break of the current line, one level
to the left. -/
def outdentFrom (p : Page) (index : Int) : Page :=
  let n := p.above.length
  let outdent (i : Nat) (l : Line) : Line := outdentTimes p.indentSize (visits index (n + 1) i) l
  let above := p.above.mapIdx fun i l => outdent (n - 1 - i) l
  { p with above, current := (outdent n p.current).outdentBreak }

def hasLine (p : Page) (index : Int) : Bool := decide (-(p.lineCount : Int) ≤ index)

/-- Drops empty lines from the end, trimming each line that becomes the last. -/
def dropEmptyLines (current : Line) : List Line → Line × List Line
  | [] => (current, [])
  | l :: above => if current.isEmpty then dropEmptyLines l.trim above else (current, l :: above)

/-- Takes spaces from the end of the last line, and empty lines too if `lines`. -/
def trim (p : Page) (lines : Bool) : Page :=
  let current := p.current.trim
  if lines then
    let ends := dropEmptyLines current p.above
    { p with current := ends.1, above := ends.2 }
  else { p with current }

/-- The lines above with an empty line put in below the nearest line that neither starts with
`first` nor ends with the item `last`; none if an empty line comes first or no line is such. -/
def insertBlank (first last : Text) : List Line → List Line
  | [] => []
  | l :: above =>
      if l.isEmpty then l :: above
      else if !first.isPrefixOf (l.items.headD []) && l.last? != some last then {} :: l :: above
      else l :: insertBlank first last above

/-- Makes sure that an empty line separates the lines at the end that belong together from those
above. -/
def ensureBlankAbove (p : Page) (first last : Text) : Page :=
  { p with above := insertBlank first last p.above }

def indentText (p : Page) (level column : Int) : Except IndentError (Text × Page) :=
  (p.indent.text level column).map fun e => (e.1, { p with indent := e.2 })

def lineTexts (indentEmpty : Bool) : List Line → Indent → Except IndentError (List Text) × Indent
  | [], i => (.ok [], i)
  | l :: ls, i =>
      match l.text i indentEmpty with
      | .error e => (.error e, i)
      | .ok (t, i) =>
          let (ts, i) := lineTexts indentEmpty ls i
          (ts.map (t :: ·), i)

/-- The texts of all lines, and the page after asking for their indentations. -/
def texts (p : Page) : Except IndentError (List Text) × Page :=
  let (ts, indent) := lineTexts p.indentEmptyLines p.lines p.indent
  (ts, { p with indent })

/-- The page as it is before its text is taken: trimmed, without line ends at the end of the last
item, and with a last empty line if one is wanted. -/
def finish (p : Page) : Page :=
  let p := p.trim true
  let (item?, line) := p.current.pop
  let current :=
    match item? with
    | none => line
    | some item => if item.isEmpty then line else line.push (Text.dropRightWhile (· == '\n') item)
  let p := { p with current }
  if p.endWithNewline then p.startLine else p

/-- The text of the page with the given line end, and the page after taking it. -/
def code (p : Page) (eol : Text) : Except IndentError Text × Page :=
  let (ts, p) := p.finish.texts
  (ts.map fun ts => Text.join eol (ts.flatMap (Text.splitOn '\n')), p)

end Page

end EmbeddedMarkup.Layout
