import EmbeddedMarkup.Html.Format
import EmbeddedMarkup.Pattern.NameTest
import EmbeddedMarkup.Source.Node
import EmbeddedMarkup.Source.Placeholder
import EmbeddedMarkup.Text.Blank

/-!
# Fragments

A fragment is the part of a source that a formatter works on: the body of a text literal, without
the letters before the quotes, the quotes, and what is trimmed at both ends. At the head these are
white space before a backslash, the backslash, and one line feed; at the tail all white space.

A formatter is called for by the name of the function that the literal is passed to.
-/

namespace EmbeddedMarkup.Source

structure Excerpt where
  start : Nat
  stop : Nat
  /-- The characters, with placeholders for expressions. -/
  code : Text
  isMultiline : Bool
  expressions : List Text := []

structure Formatter where
  /-- The functions whose first argument it is for. Without this no document can be formatted. -/
  trigger : Option NameTest
  format : Excerpt → Except Html.FormatError Text
  marks : Marks := ⟨['{', '#'], ['#', '}']⟩
  trimHead : Bool := true
  trimTail : Bool := true
  forTexts : Bool := true
  forTemplates : Bool := true

namespace Formatter

def markupTrigger : NameTest :=
  .oneOf <| Text.lits
    ["htmf.m", "htmf.markup", "ht.m", "ht.markup", "htmf.document", "ht.document"]

def scriptTrigger : NameTest :=
  .oneOf <| Text.lits ["htmf.script", "ht.script", "htmf.handler", "ht.handler"]

def styleTrigger : NameTest :=
  .oneOf <| Text.lits ["htmf.stylesheet", "ht.stylesheet", "htmf.style", "ht.style"]

/-- The formatter for markup: a literal on one line is left as it is, and the formatters for other
languages are used only where there are no expressions. -/
def markup (trigger : Option NameTest) (settings : Style.Settings) (others : Html.Formatters) :
    Formatter where
  trigger
  format x :=
    if x.isMultiline then do
      let used : Html.Formatters := if x.expressions.isEmpty then others else {}
      return (← Html.formatBy settings used x.code).text
    else .ok x.code

/-- The formatter for a language other than markup, which is for texts without expressions. -/
def code (trigger : Option NameTest) (beautify : Text → Text) : Formatter where
  trigger
  format x := .ok (if x.isMultiline then beautify x.code else x.code)
  marks := ⟨[], []⟩
  forTemplates := false

def isFor (f : Formatter) (name : Text) (arg : Node) : Bool :=
  f.trigger.any (·.holds name) && ((arg.isText && f.forTexts) || (arg.isTemplate && f.forTemplates))

/-- The first formatter for a call with this function and this first argument. -/
def select? (formatters : List Formatter) (function arg : Node) : Option Formatter :=
  match function.calledName? with
  | none => none
  | some name => formatters.find? (·.isFor name arg)

end Formatter

def quotes : List Text := [['"', '"', '"'], ['\'', '\'', '\''], ['"'], ['\'']]

/-- What lies between the quotes of a literal that is given from its opening quote on; a line feed
may follow the closing quote. -/
def bodyWithin? (quote t : Text) : Option Text := do
  let rest ← Text.dropLiteral? quote t
  let rest := if rest.getLast? = some '\n' then rest.dropLast else rest
  if quote.length ≤ rest.length ∧ Text.endsWith quote rest then
    return rest.take (rest.length - quote.length)
  else none

def quoteAndBody? (t : Text) : Option (Text × Text) :=
  quotes.findSome? fun q => (bodyWithin? q t).map (q, ·)

def dropLetter (lower upper : Char) : Text → Text
  | [] => []
  | c :: t => if c = lower ∨ c = upper then t else c :: t

def dropLetters (t : Text) : Text := dropLetter 'f' 'F' (dropLetter 'r' 'R' t)

def headLength (trimNewline : Bool) (body : Text) : Nat :=
  let blanks := body.takeWhile Text.isBlank
  let n := if (body.drop blanks.length).head? = some '\\' then blanks.length + 1 else 0
  if trimNewline ∧ (body.drop n).head? = some '\n' then n + 1 else n

/-- Where the fragment lies in a literal, and whether the quotes are triple. -/
structure Extent where
  /-- The characters of the literal before the fragment. -/
  before : Nat
  length : Nat
  isMultiline : Bool
  deriving DecidableEq, Repr

/-- Where the fragment lies in a literal; none if the letters before the quotes are not the expected
ones, or the quotes do not match. -/
def extent? (trimHead trimTail : Bool) (literal : Text) : Option Extent := do
  let quoted := dropLetters literal
  let (quote, body) ← quoteAndBody? quoted
  let head := headLength trimHead body
  let rest := body.drop head
  let inner := if trimTail then Text.stripRight rest else rest
  return {
    before := literal.length - quoted.length + quote.length + head
    length := inner.length
    isMultiline := quote.length == 3 }

structure Fragment extends Excerpt where
  formatter : Formatter

end EmbeddedMarkup.Source
