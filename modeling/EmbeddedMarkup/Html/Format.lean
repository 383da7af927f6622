import EmbeddedMarkup.Html.Embedded
import EmbeddedMarkup.Html.TagStack
import EmbeddedMarkup.Layout.Page
import EmbeddedMarkup.Text.LineEnd

/-!
# Formatting markup

The tokens of a text are written on a page one after the other. The state between two tokens is the
page, the level and alignment of the lines to come, the stack of open elements, the last tag, and
the kind of what was written last. Each kind of token has a function that writes it.

Content in another language goes through a formatter for that language, if there is one; `format`
itself is the formatter for markup in markup. Formatting inside formatting is bounded by the number
of angle brackets in the text, since content lies between the brackets of its element.
-/

namespace EmbeddedMarkup.Html

open Layout (Page)

inductive FormatError where
  | settings (e : Style.SettingError)
  | lexemes (e : LexError)
  | indentation (e : Layout.IndentError)
  /-- A token follows one that was written without being understood. -/
  | nothingBefore
  | noText
  | endlessContent

def FormatError.message : FormatError → Text
  | settings e => e.message
  | lexemes e => e.message
  | indentation e => e.message
  | nothingBefore => []
  | noText => []
  | endlessContent => "endless".toList

structure Formatters where
  javascript : Option (Text → Text) := none
  css : Option (Text → Text) := none

structure Use where
  language : Language
  text : Text

inductive Written where
  | nothing
  /-- A token that was not understood, and nothing before it. -/
  | notUnderstood
  | tagOpen
  | tagClose
  | content
  | other
  deriving DecidableEq

structure State where
  page : Page
  level : Nat := 0
  alignment : Int := 0
  stack : TagStack := []
  lastTag : Tag := {}
  last : Written := .nothing
  uses : List Use := []

namespace State

def onPage (s : State) (f : Page → Page) : State := { s with page := f s.page }

def newline (s : State) (force : Bool) : State := s.onPage (·.addNewline force)

def setSpace (s : State) (due nonBreaking : Bool) : State :=
  s.onPage fun p => { p with spaceBefore := due, nonBreaking }

def setMargin (s : State) : State :=
  s.onPage (·.setMargin { level := s.level, column := s.alignment })

def setBreak (s : State) : State := s.setMargin.onPage (·.setBreak)

def print (s : State) (t : Text) : State :=
  if t.isEmpty then s else s.setMargin.onPage (·.addItem t)

def printRaw (s : State) (t : Token) : State :=
  s.onPage (·.addRaw t.gap.newlines t.gap.blank t.text)

def newlines : Nat → State → State
  | 0, s => s
  | n + 1, s => (newlines n s).newline (n != 0)

def indent (s : State) : State := { s with level := s.level + 1 }

def outdent (s : State) : State :=
  match s.level with
  | 0 => s
  | n + 1 => { s with level := n }.setMargin

def keptNewlines (style : Style.General) (before : Kind) (t : Token) : Int :=
  if style.preserveNewlines then
    if t.gap.newlines < style.maxPreserveNewlines + 1 then t.gap.newlines
    else style.maxPreserveNewlines + 1
  else if t.kind != .text && before != .text && t.gap.newlines != 0 then 1
  else 0

def printGap (style : Style.General) (before : Kind) (t : Token) (s : State) : State :=
  if t.gap.isPresent then
    let n := keptNewlines style before t
    if n = 0 then s.onPage fun p => { p with spaceBefore := true } else newlines n.toNat s
  else s

def popTo (s : State) (found : Frame × TagStack) : State :=
  { s with stack := found.2, level := found.1.level }

end State

structure Setup where
  style : Style.Markup
  formatters : Formatters
  nested : Text → Except FormatError Text

namespace Setup

variable (setup : Setup)

def writeControlFlowOpen (before : Kind) (t : Token) (s : State) : State :=
  let s := s.setSpace t.gap.isPresent true
  let s := if t.gap.newlines = 0 then s
    else State.newlines (State.keptNewlines setup.style.toGeneral before t).toNat s
  { (s.print t.text).indent with last := .other }

def writeControlFlowClose (before : Kind) (t : Token) (s : State) : State :=
  let s := s.outdent
  let s := if t.gap.newlines = 0 then s.setSpace t.gap.isPresent true
    else State.newlines (State.keptNewlines setup.style.toGeneral before t).toNat s
  { s.print t.text with last := .other }

def writeTagClose (t : Token) (s : State) : State :=
  let tag := { s.lastTag with isComplete := true }
  let s := { s with alignment := 0 }.setSpace t.gap.isPresent true
  let s :=
    if tag.isUnformatted then s.printRaw t
    else
      let s :=
        if tag.startsWith '<' then
          let s := s.setSpace (t.startsWith '/') true
          if setup.style.wrapAttributes == .forceExpandMultiline && tag.hasWrapped then
            s.newline false
          else s
        else s
      s.print t.text
  let asItIs := tag.isUnformatted || tag.isContentUnformatted
  let indents := tag.indentsContent && !asItIs
  let s := if indents then s.indent else s
  let tag := if indents then { tag with indentsContent := false } else tag
  let s := if tag.isInline || asItIs then s else s.setBreak
  { s with lastTag := tag, last := .tagClose }

def forcesLine (tag : Tag) (last : Written) : Bool :=
  setup.style.wrapAttributes.isForced &&
    decide (setup.style.wrapAttributesMinAttrs ≤ tag.attrCount) &&
    (last != .tagOpen || setup.style.wrapAttributes == .forceExpandMultiline)

/-- Writes an attribute, an equals sign, a value or other text inside a tag. -/
def writeInsideTag (before : Kind) (t : Token) (s : State) : State :=
  let tag := s.lastTag
  let last := s.last
  let s := s.setSpace t.gap.isPresent true
  let s :=
    if tag.isUnformatted then s.printRaw t
    else if tag.startsWith '{' && t.kind == .text then
      let n := State.keptNewlines setup.style.toGeneral before t
      if n = 0 then s.print t.text
      else (State.newlines n.toNat s).onPage (·.addRaw 0 t.gap.blank t.text)
    else
      let s :=
        if t.kind == .attrName then s.setSpace true false
        else if t.kind == .equals || (t.kind == .value && before == .equals) then
          s.setSpace false false
        else s
      let isAttribute := t.kind == .attrName && tag.startsWith '<'
      let keeps := isAttribute && setup.style.wrapAttributes.isPreserved
      let s := if keeps then State.printGap setup.style.toGeneral before t s else s
      let forced := isAttribute && setup.forcesLine tag last
      let s := if forced then s.newline false else s
      let s := s.print t.text
      let wrapped := tag.hasWrapped || (keeps && t.gap.newlines != 0) || forced || s.page.wrapped
      { s with lastTag := { tag with hasWrapped := wrapped } }
  { s with last := .other }

def formatterFor (language : Language) : Option (Text → Except FormatError Text) :=
  match language with
  | .javascript => setup.formatters.javascript.map fun f t => .ok (f t)
  | .css => setup.formatters.css.map fun f t => .ok (f t)
  | .html => some setup.nested
  | .unknown => none

def contentLevel (level : Nat) : Int :=
  match setup.style.indentScripts with
  | .normal => level + 1
  | .keep => level
  | .separate => 0

def contentIndentation (s : State) : Except FormatError (Text × State) :=
  let level := setup.contentLevel s.level
  if level < 1 then .ok ([], s)
  else
    match s.page.indentText level 0 with
    | .error e => .error (.indentation e)
    | .ok (t, page) => .ok (t, { s with page })

def notesUse (language : Language) : Bool := language == .javascript || language == .css

def formatContent (language : Language) (indentation white t : Text) (s : State) :
    Except FormatError (Text × State) :=
  if t.isEmpty then .ok (t, s)
  else
    match setup.formatterFor language with
    | none => .ok (Embedded.reindent white indentation t, s)
    | some f => do
        let given := indentation ++ t
        let formatted ← f given
        let uses := if notesUse language then { language, text := given } :: s.uses else s.uses
        return (formatted, { s with uses })

def printContent (t : Text) (s : State) : State :=
  let s := s.newline false
  if t.isEmpty then s else (s.onPage (·.addRaw 0 [] t)).newline true

def writeEmbedded (language : Language) (t : Token) (s : State) : Except FormatError State := do
  let (indentation, s) ← setup.contentIndentation s
  let text := Embedded.dropLastBlank t.text
  if language != .html && Embedded.startsWrapped text then
    match Embedded.unwrap? text with
    | none => return s.printRaw t
    | some w =>
        let white := w.indentation?.getD t.gap.blank
        let body := Embedded.dropLastBlank w.body
        let (body, s) ← setup.formatContent language indentation white body s
        let head := indentation ++ w.head ++ ['\n']
        let tail := indentation ++ w.tail
        return printContent
          (if body.isEmpty then head ++ tail else head ++ body ++ '\n' :: tail) s
  else
    let (text, s) ← setup.formatContent language indentation t.gap.blank text s
    return printContent text s

def writeText (before : Kind) (t : Token) (s : State) : Except FormatError State := do
  let tag := s.lastTag
  let s ←
    match tag.language with
    | some language => setup.writeEmbedded language t s
    | none =>
        if tag.isUnformatted || tag.isContentUnformatted then pure (s.printRaw t)
        else pure ((State.printGap setup.style.toGeneral before t s).print t.text)
  return { s with last := .content }

/-- Notes that the `n`-th open element is spread over lines if a tag in it has just started a
line. -/
def noteMultiline (tag : Tag) (n : Nat) (s : State) : State :=
  match s.stack[n]? with
  | none => s
  | some parent =>
      if s.page.atLineStart && !((tag.isInline || tag.isUnformatted) && parent.isInline) then
        { s with stack := s.stack.markMultiline n }
      else s

/-- Opens or closes the element of a tag that is not empty. The result has the element that was
closed by an end tag. -/
def moveOnStack (t : Token) (following : List Token) (tag : Tag) (s : State) :
    Option Frame × Tag × State :=
  if tag.isEmpty then (none, tag, s)
  else if tag.isEnd then
    match s.stack.find? [tag.name] [] with
    | none => (none, tag, s)
    | some found => (some found.1, tag, s.popTo found)
  else
    let s :=
      match s.stack.impliedEnd? tag.name with
      | none => s
      | some found =>
          let s := s.popTo found
          if tag.isInline then s else s.newline false
    let frame : Frame :=
      { id := tag.id, name := tag.name, level := s.level, isInline := tag.isInline }
    let isScript := tag.name == "script".toList || tag.name == "style".toList
    let language :=
      if isScript && !(tag.isUnformatted || tag.isContentUnformatted) then
        Tag.contentLanguage? tag.check t following
      else none
    (none, { tag with language }, { s with stack := frame :: s.stack })

def placeExtraLine (tag : Tag) (s : State) : State :=
  if setup.style.extraLiners.has tag.check then
    let s := s.newline false
    if s.page.atBlankLine then s else s.newline true
  else s

def placeEmpty (tag : Tag) (s : State) : Tag × State :=
  let isElse := tag.startsWith '{' && tag.check == "else".toList
  let found := s.stack.find? (Text.lits ["if", "unless", "each"]) []
  let line := s.page.current
  let s := if isElse then { s with level := (found.map (·.1.level)).getD s.level } else s
  let s := if isElse && !line.mentions "\x7b\x7b#if".toList then s.newline false else s
  let tag := if isElse then { tag with indentsContent := true } else tag
  let staysPut := tag.name == "!--".toList && s.last == .tagClose && s.lastTag.isEnd &&
    tag.text.contains '\n'
  if staysPut then (tag, s)
  else
    let s := if tag.isInline || tag.isUnformatted then s else s.newline false
    (tag, noteMultiline tag 0 s)

def placeEnd (tag : Tag) (started : Option Frame) (s : State) : State :=
  let closesLast := started.any fun f => f.id == s.lastTag.id
  let expands := started.any (·.isMultiline) ||
    (!tag.isInline && !(s.lastTag.isInline || s.lastTag.isUnformatted) &&
      !(s.last == .tagClose && closesLast) && s.last != .content)
  if expands && !(tag.isContentUnformatted || tag.isUnformatted) then s.newline false else s

def placeStart (tag : Tag) (s : State) : Tag × State :=
  let indents :=
    if !tag.startsWith '<' then tag.language.isNone
    else if tag.name == "html".toList then setup.style.indentInnerHtml
    else if tag.name == "head".toList then setup.style.indentHeadInnerHtml
    else if tag.name == "body".toList then setup.style.indentBodyInnerHtml
    else tag.language.isNone
  let s :=
    if !(tag.isInline || tag.isUnformatted) &&
        (s.last != .content || tag.isContentUnformatted) then s.newline false
    else s
  ({ tag with indentsContent := indents }, noteMultiline tag 1 s)

/-- Places a tag: its element is opened or closed, and line ends are written before it. -/
def placeTag (t : Token) (following : List Token) (tag : Tag) (s : State) : Tag × State :=
  let (started, tag, s) := moveOnStack t following tag s
  let s := setup.placeExtraLine tag s
  if tag.isEmpty then placeEmpty tag s
  else if tag.isEnd then (tag, placeEnd tag started s)
  else setup.placeStart tag s

def countAttributes (following : List Token) : Nat :=
  ((following.takeWhile fun t => t.kind != .eof && t.kind != .tagClose).filter
    fun t => t.kind == .attrName).length

def writeTagOpen (before : Kind) (t : Token) (following : List Token) (s : State) : State :=
  let tag := Tag.ofToken setup.style t following
  let endsAsItIs := (s.lastTag.isUnformatted || s.lastTag.isContentUnformatted) &&
    !s.lastTag.isEmpty && t.kind == .tagOpen && !tag.isStart
  let (tag, s) :=
    if endsAsItIs then
      let s := s.printRaw t
      match s.stack.find? [tag.name] [] with
      | none => (tag, s)
      | some found => (tag, s.popTo found)
    else
      let s := State.printGap setup.style.toGeneral before t s
      let (tag, s) := setup.placeTag t following tag s
      let s := if tag.isInline then s else s.setBreak
      (tag, s.print t.text)
  let count := if tag.isStart && setup.style.wrapAttributes.isForced then
    countAttributes following else 0
  let alignment : Int := if setup.style.wrapAttributes.isAligned then t.text.length + 1
    else setup.style.wrapAttributesIndentSize
  let s := if tag.isComplete || tag.isUnformatted then s else { s with alignment }
  { s with lastTag := { tag with attrCount := count }, last := .tagOpen }

def write (before : Kind) (t : Token) (following : List Token) (s : State) :
    Except FormatError State :=
  if s.last = .notUnderstood then .error .nothingBefore
  else
    match t.kind with
    | .tagOpen | .comment => .ok (setup.writeTagOpen before t following s)
    | .attrName | .equals | .value => .ok (setup.writeInsideTag before t s)
    | .tagClose => .ok (setup.writeTagClose t s)
    | .text =>
        if s.lastTag.isComplete then setup.writeText before t s
        else .ok (setup.writeInsideTag before t s)
    | .controlFlowOpen => .ok (setup.writeControlFlowOpen before t s)
    | .controlFlowClose => .ok (setup.writeControlFlowClose before t s)
    | .start | .raw | .eof | .unknown =>
        .ok { s.printRaw t with last := if s.last = .nothing then .notUnderstood else s.last }

def writeAll : (before : Kind) → List Token → State → Except FormatError State
  | _, [], s => .ok s
  | before, t :: following, s =>
      if t.kind = .eof then .ok s
      else do writeAll t.kind following (← setup.write before t following s)

end Setup

structure Formatted where
  text : Text
  uses : List Use := []

def lineEndFor (style : Style.General) (t : Text) : Text :=
  if style.eol = "auto".toList then (Text.firstLineEnd? t).getD ['\n'] else style.eol

def formatWith (nested : Text → Except FormatError Text) (style : Style.Markup)
    (formatters : Formatters) (t : Text) : Except FormatError Formatted := do
  if style.disabled then return { text := t }
  let source := Text.unifyLineEnds t
  let base := source.takeWhile fun c => c == '\t' || c == ' '
  (Page.checkStyle style.toGeneral).mapError .indentation
  let tokens ← (Token.ofText (.ofStyle style) source).mapError .lexemes
  let setup : Setup := { style, formatters, nested }
  let s ← setup.writeAll .start tokens { page := .ofStyle style.toGeneral base }
  let text ← (s.page.code (lineEndFor style.toGeneral t)).1.mapError .indentation
  return { text, uses := s.uses.reverse }

/-- Formats a text in which content lies at most `depth` deep in content. -/
def formatDeep : (depth : Nat) → Style.Markup → Formatters → Text → Except FormatError Formatted
  | 0, _, _, _ => .error .endlessContent
  | depth + 1, style, formatters, t =>
      let nested (content : Text) : Except FormatError Text := do
        let inner ← style.forEmbedded.mapError .settings
        return (← formatDeep depth inner {} content).text
      formatWith nested style formatters t

def format (style : Style.Markup) (formatters : Formatters) (t : Text) :
    Except FormatError Formatted :=
  formatDeep (t.count '<' + 1) style formatters t

def formatBy (settings : Style.Settings) (formatters : Formatters) (t : Text) :
    Except FormatError Formatted := do
  let style ← (Style.Markup.ofSettings settings).mapError .settings
  format style formatters t

/-- Formats a text that may be missing: then only a style that leaves everything as it is has a
result, which is missing too. -/
def formatBy? (settings : Style.Settings) (formatters : Formatters) :
    Option Text → Except FormatError (Option Formatted)
  | some t => return some (← formatBy settings formatters t)
  | none => do
      let style ← (Style.Markup.ofSettings settings).mapError .settings
      if style.disabled then return none else throw .noText

end EmbeddedMarkup.Html
