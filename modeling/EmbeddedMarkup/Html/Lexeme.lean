import EmbeddedMarkup.Html.Directive
import EmbeddedMarkup.Html.Gap
import EmbeddedMarkup.Html.Template
import EmbeddedMarkup.Pattern.Reading
import EmbeddedMarkup.Style.Basic
import EmbeddedMarkup.Text.Casing

/-!
# Lexemes of markup

Markup is cut into lexemes, each with the gap in front of it. What a character starts depends on
what came before: inside a tag there are attributes and values, after the start tag of a script
there is raw text up to its end tag, elsewhere there are words, tags and comments. `Context` holds
that much of the past, and `Readers.piece` decides on the next lexeme.

A decision is a kind and a length, never a text, and a lexeme has at least one character. So
`lexemes` cuts its input without changing it, whatever the readers decide.
-/

namespace EmbeddedMarkup.Html

inductive Kind where
  | start
  | raw
  | eof
  | tagOpen
  | tagClose
  | controlFlowOpen
  | controlFlowClose
  | attrName
  | equals
  | value
  | comment
  | text
  | unknown
  deriving DecidableEq

structure Lexeme where
  kind : Kind
  text : Text
  gap : Gap := {}
  /-- The directives, if the piece is a comment that carries some. -/
  directives : Option Directives := none

namespace Lexeme

def opens (l : Lexeme) : Bool := l.kind == .tagOpen || l.kind == .controlFlowOpen

def startsWith (l : Lexeme) (c : Char) : Bool := l.text.head? == some c

def closes (l opening : Lexeme) : Bool :=
  match l.kind with
  | .tagClose =>
      ((l.text == ['>'] || l.text == ['/', '>']) && opening.startsWith '<') ||
        (l.text == ['}', '}'] && ['{', '{'].isPrefixOf opening.text)
  | .controlFlowClose => l.text == ['}'] && opening.text.getLast? == some '{'
  | _ => false

end Lexeme

inductive LexError where
  /-- A comment carries directives, but does not say what to ignore. -/
  | noIgnoreDirective
  /-- The head of a control flow block never comes to its brace. -/
  | endlessHeader
  /-- The name of an element whose content is left as it is makes no pattern for its end tag. -/
  | badName (pattern : Text) (fault : Pattern.Fault)
  deriving DecidableEq

def LexError.message : LexError → Text
  | noIgnoreDirective => "'ignore'".toList
  | endlessHeader => "endless".toList
  | badName pattern fault => fault.message pattern

structure Context where
  previous : Lexeme := { kind := .start, text := [] }
  closed : Option Lexeme := none
  opened : List Lexeme := []

namespace Context

def advance (ctx : Context) (l : Lexeme) : Context :=
  if l.opens then { previous := l, opened := l :: ctx.opened }
  else
    match ctx.opened with
    | [] => { previous := l }
    | o :: rest =>
        if l.closes o then { previous := l, closed := some o, opened := rest }
        else { previous := l, opened := o :: rest }

def betweenTags (ctx : Context) : Bool :=
  match ctx.opened with
  | [] => true
  | o :: _ => o.kind == .controlFlowOpen

def openStartsWith (ctx : Context) (c : Char) : Bool := ctx.opened.head?.any (·.startsWith c)

def openIs (ctx : Context) (k : Kind) : Bool := ctx.opened.head?.any (·.kind == k)

/-- The name of the element whose tag has just been completed; an end tag has a name that starts
with a slash, and an empty tag has none. -/
def contentOf? (ctx : Context) : Option Text :=
  if ctx.previous.kind == .tagClose && !ctx.previous.startsWith '/' then
    match ctx.closed with
    | some o => if o.startsWith '<' then some (Text.lower (o.text.drop 1)) else none
    | none => none
  else none

end Context

/-- A decision: the kind of the next lexeme and its length. -/
structure Piece where
  kind : Kind
  length : Nat
  directives : Option Directives := none

def Piece.ofLength (kind : Kind) : Nat → Option Piece
  | 0 => none
  | n + 1 => some { kind, length := n + 1 }

structure Readers where
  style : Style.Markup
  word : TemplateReader
  /-- Words in a control flow block, which a brace ends. -/
  wordInBlock : TemplateReader
  singleQuoted : TemplateReader
  doubleQuoted : TemplateReader
  attrName : TemplateReader
  elementName : TemplateReader

namespace Readers

def usesTemplate (style : Style.Markup) (l : Template) : Bool := style.templating.contains l.name

def templates (style : Style.Markup) : TemplateReader :=
  { disabled := Template.all.filter fun l => !usesTemplate style l }

def oneOf (cs : List Char) : Recognizer := .one cs.contains

def ofStyle (style : Style.Markup) : Readers :=
  let base := templates style
  let words := if style.indentHandlebars then base.exclude .handlebars else base
  { style
    word := words.upTo (oneOf ['\n', '\r', '\t', ' ', '<'])
    wordInBlock := words.upTo (oneOf ['\n', '\r', '\t', ' ', '<', '}'])
    singleQuoted := base.through (.literal ['\''])
    doubleQuoted := base.through (.literal ['"'])
    attrName :=
      base.upTo ((oneOf ['\n', '\r', '\t', ' ', '=', '>']).orElse (.literal ['/', '>']))
    elementName := base.upTo (oneOf ['\n', '\r', '\t', ' ', '>', '/']) }

variable (rs : Readers) (ctx : Context)

def handlebars (t : Text) : Option Piece :=
  if ctx.betweenTags && (usesTemplate rs.style .angular || rs.style.indentHandlebars) &&
      ['{', '{'].isPrefixOf t then
    if rs.style.indentHandlebars && ['{', '{', '!'].isPrefixOf t then
      let n := (Reader.between ['{', '{', '!', '-', '-'] ['-', '-', '}', '}']).length t
      let n := if n = 0 then (Reader.between ['{', '{'] ['}', '}']).length t else n
      Piece.ofLength .comment n
    else
      Piece.ofLength .tagOpen ((Reader.upTo {} (oneOf ['\n', '\r', '\t', ' ', '}'])).length t)
  else none

def insideTag : Text → Option Piece
  | [] => none
  | c :: t =>
      if !ctx.openStartsWith '<' then none
      else if c = '=' then some { kind := .equals, length := 1 }
      else if c = '"' then some { kind := .value, length := 1 + rs.doubleQuoted.length t }
      else if c = '\'' then some { kind := .value, length := 1 + rs.singleQuoted.length t }
      else
        let kind := if ctx.previous.kind == .equals then Kind.value else Kind.attrName
        Piece.ofLength kind (rs.attrName.length (c :: t))

def close (t : Text) : Option Piece :=
  if !ctx.openIs .tagOpen then none
  else if ctx.openStartsWith '<' then
    if ['>'].isPrefixOf t then some { kind := .tagClose, length := 1 }
    else if ['/', '>'].isPrefixOf t then some { kind := .tagClose, length := 2 }
    else none
  else if ctx.openStartsWith '{' && ['}', '}'].isPrefixOf t then
    some { kind := .tagClose, length := 2 }
  else none

/-- A comment or a character data section. After a comment that says so, everything up to the end
of the ignored part belongs to it. -/
def comment (t : Text) : Except LexError (Option Piece) :=
  match (Reader.between "<!--".toList "-->".toList).length t with
  | 0 => .ok (Piece.ofLength .comment ((Reader.between "<![CDATA[".toList "]]>".toList).length t))
  | n + 1 =>
      let length := n + 1
      match Directives.ofComment? (t.take length) with
      | none => .ok (some { kind := .comment, length })
      | some ds =>
          match ds.get? "ignore".toList with
          | none => .error .noIgnoreDirective
          | some v =>
              let more :=
                if v = "start".toList then
                  Reader.stopLength (some Directives.ignoreEnd) true (t.drop length)
                else 0
              .ok (some { kind := .comment, length := length + more, directives := some ds })

/-- Matches the end tag of the named element, in any case and with a gap before its end. -/
def endTag (name : Text) : Recognizer := fun t =>
  match Text.dropLiteral? ['<', '/'] t with
  | none => none
  | some r =>
      if Text.startsWithLetters name r then
        let blanks := (r.drop name.length).takeWhile isGapChar
        if (r.drop (name.length + blanks.length)).head? = some '>' then
          some (2 + name.length + blanks.length + 1)
        else none
      else none

/-- The pattern of the end tag of the named element, in which the name is a pattern itself. -/
def endTagPattern (name : Text) : Text := ['<', '/'] ++ name ++ "[\\n\\r\\t ]*?>".toList

def isPlainChar (c : Char) : Bool := !"\\^$*+?.()|[]\x7b\x7d".toList.contains c

/-- The number of characters before the end tag of the named element. A name of plain characters is
that name; any other one is a pattern for names. -/
def contentLength (name t : Text) : Except LexError Nat :=
  if name.all isPlainChar then .ok ((endTag name).reach t)
  else
    match Pattern.ofText (endTagPattern name) true with
    | .error f => .error (.badName (endTagPattern name) f)
    | .ok p =>
        let start : Place := { pos := 1, before := ['>'], rest := t }
        .ok <|
          match p.searchFrom? start t with
          | some (s, _) => s.pos - 1
          | none => t.length

def scriptContent (t : Text) : Except LexError (Option Piece) :=
  match ctx.contentOf? with
  | none => .ok none
  | some name =>
      if name = "script".toList ∨ name = "style".toList then do
        match ← comment t with
        | some p => return some { p with kind := .text }
        | none => return Piece.ofLength .text ((endTag name).reach t)
      else .ok none

/-- Matches the head of a control flow block up to its first parenthesis or brace. -/
def controlFlowStart : Recognizer :=
  .sequence [.literal ['@'], .run Char.isAlpha, .anyRun fun c => !(c == '(' || c == '{'),
    oneOf ['(', '{']]

/-- The number of characters through the first brace at which `depth` open parentheses are
closed. -/
def headerLength? : (depth : Int) → Text → Option Nat
  | _, [] => none
  | depth, c :: t =>
      let depth := if c = '(' then depth + 1 else if c = ')' then depth - 1 else depth
      if c = '{' ∧ depth = 0 then some 1 else (headerLength? depth t).map (· + 1)

def controlFlow (t : Text) : Except LexError (Option Piece) :=
  if !usesTemplate rs.style .angular then .ok none
  else if ['@'].isPrefixOf t then
    match controlFlowStart t with
    | none => .ok none
    | some n =>
        if (t.take n).getLast? = some '{' then
          .ok (some { kind := .controlFlowOpen, length := n })
        else
          match headerLength? 1 (t.drop n) with
          | none => .error .endlessHeader
          | some m => .ok (some { kind := .controlFlowOpen, length := n + m })
  else if ['}'].isPrefixOf t && ctx.openIs .controlFlowOpen then
    .ok (some { kind := .controlFlowClose, length := 1 })
  else .ok none

def leavesContent (name : Text) : Bool :=
  !rs.style.voidElements.has name &&
    (rs.style.contentUnformatted.has name || rs.style.unformatted.has name)

def rawContent (t : Text) : Except LexError (Option Piece) :=
  if ctx.openStartsWith '{' then
    .ok (Piece.ofLength .text ((Reader.upTo {} (.literal ['}', '}'])).length t))
  else
    match ctx.contentOf? with
    | some name =>
        if rs.leavesContent name then (contentLength name t).map (Piece.ofLength .text)
        else .ok none
    | none => .ok none

def delimitedLength (t : Text) : Nat :=
  match rs.style.unformattedContentDelimiter with
  | [] => 0
  | c :: d =>
      if t.head? = some c then
        ((Reader.matching {} (.literal (c :: d))).through (.literal (c :: d))).length t
      else 0

def contentWord (t : Text) : Option Piece :=
  let n := rs.delimitedLength t
  let reader := if ctx.openIs .controlFlowOpen then rs.wordInBlock else rs.word
  Piece.ofLength .text (if n = 0 then reader.length t else n)

def processing (t : Text) : Option Piece :=
  let n := (Reader.between "<![".toList "]>".toList).length t
  Piece.ofLength .comment (if n = 0 then (Reader.between "<?".toList "?>".toList).length t else n)

def tagOpen : Text → Option Piece
  | '<' :: '/' :: t =>
      if ctx.betweenTags then some { kind := .tagOpen, length := 2 + rs.elementName.length t }
      else none
  | '<' :: t =>
      if ctx.betweenTags then some { kind := .tagOpen, length := 1 + rs.elementName.length t }
      else none
  | _ => none

/-- The next lexeme at the start of a text that does not start with a gap. -/
def piece (t : Text) : Except LexError Piece := do
  if let some p := rs.handlebars ctx t then return p
  if let some p := rs.insideTag ctx t then return p
  if let some p := close ctx t then return p
  if let some p ← scriptContent ctx t then return p
  if let some p ← rs.controlFlow ctx t then return p
  if let some p ← rs.rawContent ctx t then return p
  if let some p := rs.contentWord ctx t then return p
  if let some p ← comment t then return p
  if let some p := processing t then return p
  if let some p := rs.tagOpen ctx t then return p
  return { kind := .unknown, length := 1 }

end Readers

def lexemesFrom (rs : Readers) (ctx : Context) (t : Text) : Except LexError (List Lexeme) :=
  let gap := Gap.ofText {} (Gap.span {} t)
  match h : t.dropWhile isGapChar with
  | [] => .ok [{ kind := .eof, text := [], gap }]
  | c :: r => do
      let p ← rs.piece ctx (c :: r)
      let l : Lexeme :=
        { kind := p.kind, text := c :: r.take (p.length - 1), gap, directives := p.directives }
      return l :: (← lexemesFrom rs (ctx.advance l) (r.drop (p.length - 1)))
termination_by t.length
decreasing_by
  have hle : (c :: r).length ≤ t.length := h ▸ (List.dropWhile_suffix isGapChar).length_le
  simp only [List.length_cons] at hle
  simp only [List.length_drop]
  omega

/-- The lexemes of a text; the last one, and only it, is the end of the text. -/
def lexemes (rs : Readers) (t : Text) : Except LexError (List Lexeme) := lexemesFrom rs {} t

def rawLexemes (t : Text) : List Lexeme :=
  let gap := Gap.ofText {} (Gap.span {} t)
  match _h : t.dropWhile isGapChar with
  | [] => [{ kind := .eof, text := [], gap }]
  | c :: r =>
      { kind := .raw, text := c :: r.takeWhile (· != '\n'), gap } ::
        rawLexemes (r.dropWhile (· != '\n'))
termination_by t.length
decreasing_by
  have hle : (c :: r).length ≤ t.length := _h ▸ (List.dropWhile_suffix isGapChar).length_le
  have hrest : (r.dropWhile (· != '\n')).length ≤ r.length :=
    (List.dropWhile_suffix _).length_le
  simp only [List.length_cons] at hle
  omega

end EmbeddedMarkup.Html
