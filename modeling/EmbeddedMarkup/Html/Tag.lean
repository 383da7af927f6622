import EmbeddedMarkup.Html.Token

/-!
# Tags

What the formatter knows about a tag: its name, whether it starts or ends an element, whether the
element stays in the line, is left as it is, or has content in another language. A comment counts
as a tag that is complete from the start.
-/

namespace EmbeddedMarkup.Html

inductive Language where
  | css
  | javascript
  | html
  | unknown
  deriving DecidableEq

structure Tag where
  /-- The place of the tag among the tokens; none before the first tag. -/
  id : Option Nat := none
  text : Text := []
  check : Text := []
  name : Text := []
  isStart : Bool := false
  isEnd : Bool := false
  /-- Whether the tag does both, or is complete from the start. -/
  isEmpty : Bool := false
  isInline : Bool := false
  isUnformatted : Bool := false
  isContentUnformatted : Bool := false
  isComplete : Bool := true
  indentsContent : Bool := false
  language : Option Language := none
  attrCount : Nat := 0
  /-- Whether an attribute stands on a line of its own. -/
  hasWrapped : Bool := false

namespace Tag

def startsWith (tag : Tag) (c : Char) : Bool := tag.text.head? == some c

/-- The name of a Handlebars tag after its marks: a tilde, then a caret or a hash with an optional
star. A mark that nothing follows is itself the name. -/
def handlebarsName (t : Text) : Text :=
  let isNameChar (c : Char) : Bool := !(Text.isBlank c || c == '}')
  let afterHash (t : Text) : List Text :=
    match t with
    | '^' :: r => [r, t]
    | '#' :: '*' :: r => [r, '*' :: r, t]
    | '#' :: r => [r, t]
    | _ => [t]
  let candidates : List Text :=
    match t with
    | '{' :: '{' :: '~' :: r => afterHash r ++ ['~' :: r]
    | '{' :: '{' :: r => afterHash r
    | _ => []
  ((candidates.map (·.takeWhile isNameChar)).find? (!·.isEmpty)).getD []

/-- The name in the opening of a Handlebars tag, where a partial is named after an angle bracket,
at times only in the token that follows. -/
def handlebarsCheck (t : Text) (next : Option Text) : Text :=
  let name := handlebarsName t
  if (['{', '{', '#', '>'].isPrefixOf t || ['{', '{', '~', '#', '>'].isPrefixOf t) &&
      name.head? == some '>' then
    match name, next with
    | ['>'], some following => following.takeWhile (· != ' ')
    | _, _ => ((t.dropWhile (· != '>')).drop 1).takeWhile (· != '>')
  else name

/-- The name in the opening of a tag, in lower case and with the slash of an end tag. -/
def checkOf (t : Text) (next : Option Text) : Text :=
  Text.lower <|
    match t with
    | '<' :: r => r.takeWhile fun c => !(Text.isBlank c || c == '>')
    | _ => handlebarsCheck t next

/-- Whether a Handlebars tag stands for itself and encloses nothing: no block is opened by it, or
blocks are not indented. -/
def isHandlebarsSingle (indentHandlebars : Bool) (t : Text) : Bool :=
  let mark := if (t.drop 2).head? == some '~' then t.drop 3 else t.drop 2
  t.head? == some '{' &&
    (!indentHandlebars || decide (t.length < 3) ||
      mark.head?.any fun c => !(c == '#' || c == '^'))

/-- What can be told of a tag from its opening, the tokens after it, and the style. -/
def ofToken (style : Style.Markup) (token : Token) (following : List Token) : Tag :=
  let check := checkOf token.text (following.head?.map (·.text))
  let isStart := check.head? != some '/'
  let name := if isStart then check else check.drop 1
  let isComplete := token.kind == .comment
  let selfClosed := token.closed.any fun i =>
    (following.find? fun t => t.index == i).any fun t => t.text == ['/', '>']
  let isEnd := !isStart || selfClosed || isHandlebarsSingle style.indentHandlebars token.text ||
    style.voidElements.has check
  let isEmpty := isComplete || (isStart && isEnd)
  { id := some token.index
    text := token.text
    check, name, isStart, isEnd, isEmpty, isComplete
    isUnformatted := !isComplete && style.unformatted.has check
    isContentUnformatted := !isEmpty && style.contentUnformatted.has check
    isInline := style.inline.has name || (style.inlineCustomElements && name.contains '-') ||
      token.text.head? == some '{' }

def typeOf? : List Token → Option Text
  | [] => none
  | t :: rest =>
      if t.kind == .attrName && t.text == "type".toList then
        match rest with
        | e :: v :: _ => if e.kind == .equals && v.kind == .value then some v.text else none
        | _ => none
      else typeOf? rest

/-- Whether a media type for one of the families names one of the given subtypes. -/
def namesSubtype (type : Text) (subtypes : List String) : Bool :=
  ["text", "application", "dojo"].any fun family =>
    ["", "x-"].any fun mark =>
      subtypes.any fun sub => Text.includes (family ++ "/" ++ mark ++ sub).toList type

def languageOf? (type : Text) : Option Language :=
  if Text.includes "text/css".toList type then some .css
  else if Text.includes "module".toList type || namesSubtype type
      ["javascript", "ecmascript", "jscript", "livescript", "ld+json", "json", "method",
        "aspect"] then some .javascript
  else if namesSubtype type ["html"] then some .html
  else if Text.includes "test/null".toList type then some .unknown
  else none

/-- The language of the content of a script or a style sheet; none if its tag is not completed or
the type says something else. -/
def contentLanguage? (check : Text) (token : Token) (following : List Token) : Option Language :=
  token.closed.bind fun i =>
    let default := if check = "style".toList then "text/css".toList else "text/javascript".toList
    let inside := following.takeWhile fun t => t.kind != .eof && t.index != i
    languageOf? ((typeOf? inside).getD default)

end Tag

end EmbeddedMarkup.Html
