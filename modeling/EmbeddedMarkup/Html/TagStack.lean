import EmbeddedMarkup.Html.Tag

/-!
# The stack of open elements

The elements that are open at some point of the text form a stack, innermost first. An end tag
closes the nearest element of its name and all elements inside it. Some start tags close elements
whose end tag may be left out, unless an element that limits the search comes first.
-/

namespace EmbeddedMarkup.Html

structure Frame where
  id : Option Nat
  name : Text
  level : Nat
  isInline : Bool
  isMultiline : Bool := false

abbrev TagStack := List Frame

namespace TagStack

/-- The nearest element with one of the given names and the elements around it; none if an element
with one of the `stops` is nearer. -/
def find? (names stops : List Text) : TagStack → Option (Frame × TagStack)
  | [] => none
  | f :: rest =>
      if names.contains f.name then some (f, rest)
      else if stops.contains f.name then none
      else find? names stops rest

def paragraphClosers : List Text :=
  Text.lits
    ["address", "article", "aside", "blockquote", "details", "div", "dl", "fieldset",
      "figcaption", "figure", "footer", "form", "h1", "h2", "h3", "h4", "h5", "h6", "header", "hr",
      "main", "menu", "nav", "ol", "p", "pre", "section", "table", "ul"]

def paragraphKeepers : List Text :=
  Text.lits ["a", "audio", "del", "ins", "map", "noscript", "video"]

/-- The elements that the start tag of `name` closes if they are open, each with the elements that
limit the search for it. The first that is found is closed. -/
def impliedEnds (name : Text) (stack : TagStack) : List (Text × List Text) :=
  let is (s : String) : Bool := name == s.toList
  let ends (es : List (String × List String)) : List (Text × List Text) :=
    es.map fun e => (e.1.toList, Text.lits e.2)
  if is "body" then ends [("head", [])]
  else if is "li" then ends [("li", ["ol", "ul", "menu"])]
  else if is "dd" || is "dt" then ends [("dt", ["dl"]), ("dd", ["dl"])]
  else if (stack.head?.any fun f => f.name == ['p']) && paragraphClosers.contains name then
    if (stack.drop 1).head?.any fun f => paragraphKeepers.contains f.name then []
    else ends [("p", [])]
  else if is "rp" || is "rt" then ends [("rt", ["ruby", "rtc"]), ("rp", ["ruby", "rtc"])]
  else if is "optgroup" then ends [("optgroup", ["select"])]
  else if is "option" then ends [("option", ["select", "datalist", "optgroup"])]
  else if is "colgroup" then ends [("caption", ["table"])]
  else if is "thead" then ends [("caption", ["table"]), ("colgroup", ["table"])]
  else if is "tbody" || is "tfoot" then
    ends [("caption", ["table"]), ("colgroup", ["table"]), ("thead", ["table"]),
      ("tbody", ["table"])]
  else if is "tr" then
    ends [("caption", ["table"]), ("colgroup", ["table"]),
      ("tr", ["table", "thead", "tbody", "tfoot"])]
  else if is "th" || is "td" then
    ends [("td", ["table", "thead", "tbody", "tfoot", "tr"]),
      ("th", ["table", "thead", "tbody", "tfoot", "tr"])]
  else []

/-- The element that the start tag of `name` closes, and the elements around it. -/
def impliedEnd? (name : Text) (stack : TagStack) : Option (Frame × TagStack) :=
  if stack.isEmpty then none
  else (impliedEnds name stack).findSome? fun e => find? [e.1] e.2 stack

def markMultiline (n : Nat) (stack : TagStack) : TagStack :=
  stack.modify n fun f => { f with isMultiline := true }

end TagStack

end EmbeddedMarkup.Html
