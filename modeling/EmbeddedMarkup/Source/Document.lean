import EmbeddedMarkup.Source.Fragment
import EmbeddedMarkup.Text.LineEnd

/-!
# Documents

A document is a source with its syntax tree. To format it, the tree is visited for the calls that a
formatter is for; each gives a fragment, and the formatted fragments are put into the source in the
order in which they were met.

The expressions of a template are documents of their own, formatted first. While the template around
them is formatted, a placeholder of the same shape stands for each of them.

A literal whose quotes cannot be made out is left alone and counted.
-/

namespace EmbeddedMarkup.Source

inductive DocumentError where
  | position (e : PositionError)
  | format (e : Html.FormatError)
  | fill (e : FillError)
  /-- The place of an expression has no room for its braces. -/
  | noBraces
  /-- An expression has line ends other than line feeds. -/
  | otherLineEnds
  | noTrigger

def DocumentError.message : DocumentError → Text
  | position e => e.message
  | format e => e.message
  | fill e => e.message
  | noBraces => []
  | otherLineEnds => []
  | noTrigger => "'NoneType' object has no attribute 'search'".toList

abbrev Visit := ExceptT DocumentError (StateM Nat)

namespace Visit

def ofExcept {ε α : Type} (wrap : ε → DocumentError) : Except ε α → Visit α
  | .ok a => pure a
  | .error e => throw (wrap e)

def leaveAlone : Visit Unit := modify (· + 1)

end Visit

def keepMark : Text := "htmf-nofmt".toList

/-- Whether the line before the given one asks to keep a call as it is. -/
def isKept (ls : List Line) (line : Int) : Except PositionError Bool :=
  if line - 1 < 1 then .ok false
  else
    match itemAt? ls (line - 2) with
    | none => .error .noSuchLine
    | some l =>
        let t := Text.strip l.text
        .ok (t.head? == some '#' && Text.includes keepMark t)

structure Job where
  source : Text
  lines : List Line
  formatters : List Formatter

def Job.ofSource (formatters : List Formatter) (source : Text) : Job :=
  { source, lines := Source.lines source, formatters }

namespace Job

variable (job : Job)

def range (s : Span) : Visit (Nat × Nat) := Visit.ofExcept .position (s.range job.lines)

/-- The excerpt of the literal at the given place, where `source` is the source with
placeholders. -/
def excerpt? (f : Formatter) (s : Span) (source : Text) (expressions : List Text) :
    Visit (Option Excerpt) := do
  let (b, e) ← job.range s
  match extent? f.trimHead f.trimTail (slice source b e) with
  | none =>
      Visit.leaveAlone
      return none
  | some x =>
      let start := b + x.before
      let stop := start + x.length
      let code := slice source start stop
      return some { start, stop, code, isMultiline := x.isMultiline, expressions }

/-- The source with reserved marks for the braces of an expression, and its characters hidden. -/
def cover (source : Text) (s : Span) : Visit Text := do
  let (b, e) ← job.range s
  if e < b + 2 then throw .noBraces
  let chunk := slice source (b + 1) (e - 1)
  let hidden := Marks.hide chunk
  if Text.lineCount chunk ≠ Text.lineCount hidden then throw .otherLineEnds
  return source.take b ++ reserved.opening ++ hidden ++ reserved.closing ++ source.drop e

def coverAll (source : Text) : List Node → Visit Text
  | [] => return source
  | .expression s _ _ _ :: parts => do coverAll (← job.cover source s) parts
  | _ :: parts => coverAll source parts

def textFragments (f : Formatter) (s : Span) : Visit (List Fragment) := do
  match ← job.excerpt? f s job.source [] with
  | none => return []
  | some x => return [{ x with formatter := f }]

def templateFragments (f : Formatter) (s : Span) (parts : List Node) (expressions : List Text) :
    Visit (List Fragment) := do
  let covered ← job.coverAll job.source parts
  match ← job.excerpt? f s covered expressions with
  | none => return []
  | some x =>
      let code ← Visit.ofExcept .fill (reserved.fill (expressions.map f.marks.placeholder) x.code)
      return [{ x with code, formatter := f }]

def render (fragment : Fragment) : Visit Text := do
  let t ← Visit.ofExcept .format (fragment.formatter.format fragment.toExcerpt)
  if fragment.expressions.isEmpty then return t
  else Visit.ofExcept .fill (fragment.formatter.marks.fill fragment.expressions t)

def splice (pos : Nat) (stop : Nat) : List Fragment → Visit Text
  | [] => return slice job.source pos stop
  | f :: fs => do
      let before := slice job.source pos f.start
      let here ← render f
      return before ++ here ++ (← splice f.stop stop fs)

def formatterForCall? (s : Span) (function : Node) (args : List Node) : Visit (Option Formatter) :=
  match function.calledName?, args with
  | some _, arg :: _ => do
      if ← Visit.ofExcept .position (isKept job.lines s.line) then return none
      return Formatter.select? job.formatters function arg
  | _, _ => return none

mutual

def fragments : Node → Visit (List Fragment)
  | .name .. => return []
  | .constant .. => return []
  | .member _ value _ => fragments value
  | .template _ parts => fragmentsAll parts
  | .group _ _ parts => fragmentsAll parts
  | .expression _ value _ spec => do
      let here ← fragments value
      return here ++ (← fragmentsOption spec)
  | .call s function args keywords => do
      match ← job.formatterForCall? s function args with
      | none =>
          let inFunction ← fragments function
          let inArgs ← fragmentsAll args
          return inFunction ++ inArgs ++ (← fragmentsKeywords keywords)
      | some f => firstFragments f args

def fragmentsAll : List Node → Visit (List Fragment)
  | [] => return []
  | n :: ns => do
      let here ← fragments n
      return here ++ (← fragmentsAll ns)

def fragmentsKeywords : List (Option Text × Node) → Visit (List Fragment)
  | [] => return []
  | (_, n) :: ns => do
      let here ← fragments n
      return here ++ (← fragmentsKeywords ns)

def fragmentsOption : Option Node → Visit (List Fragment)
  | none => return []
  | some n => fragments n

def firstFragments (f : Formatter) : List Node → Visit (List Fragment)
  | .template s parts :: _ => do
      let expressions ← formattedExpressions parts
      job.templateFragments f s parts expressions
  | .constant s _ :: _ => job.textFragments f s
  | _ => return []

def formattedExpressions : List Node → Visit (List Text)
  | [] => return []
  | .expression s value _ spec :: parts => do
      let inValue ← fragments value
      let all := inValue ++ (← fragmentsOption spec)
      let (b, e) ← job.range s
      let here ← job.splice b e all
      return here :: (← formattedExpressions parts)
  | _ :: parts => formattedExpressions parts

end

def anyTriggered (source : Text) : List Formatter → Except DocumentError Bool
  | [] => .ok false
  | f :: fs =>
      match f.trigger with
      | none => .error .noTrigger
      | some t => if t.occursIn source then .ok true else anyTriggered source fs

def hasTrigger : Except DocumentError Bool := anyTriggered job.source job.formatters

/-- The formatted source of a tree: a module is the whole source, and any other node is its own
part of it. -/
def formatted (root : Node) : Visit Text := do
  let triggered ← Visit.ofExcept id job.hasTrigger
  if !triggered then return job.source
  let found ← job.fragments root
  match root with
  | .group _ .module _ => job.splice 0 job.source.length found
  | root =>
      let (b, e) ← job.range root.span
      job.splice b e found

end Job

structure Outcome (ε : Type) where
  result : Except ε Text
  leftAlone : Nat

def formatDocument (formatters : List Formatter) (source : Text) (root : Node) :
    Outcome DocumentError :=
  let (result, leftAlone) := ((Job.ofSource formatters source).formatted root).run.run 0
  { result, leftAlone }

end EmbeddedMarkup.Source
