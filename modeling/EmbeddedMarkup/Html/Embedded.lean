import EmbeddedMarkup.Text.Basic

/-!
# Embedded content

The content of a script or a style sheet is put on lines of its own. Before that it is taken apart:
a last empty line is dropped, and content that is wrapped in a comment or in a character data
section is separated from its wrapping.
-/

namespace EmbeddedMarkup.Html.Embedded

def isSpace (c : Char) : Bool := c == ' ' || c == '\t'

/-- Whether only spaces and tabs are left, up to the end or to a last line end. -/
def isLastBlank (t : Text) : Bool :=
  match t.dropWhile isSpace with
  | [] => true
  | ['\n'] => true
  | _ => false

/-- The text without the first line end after which only spaces and tabs come, and without those;
a line end that comes last of all is kept. -/
def dropLastBlank : Text → Text
  | [] => []
  | c :: t => if c = '\n' && isLastBlank t then t.dropWhile isSpace else c :: dropLastBlank t

structure Wrapped where
  head : Text
  /-- The line ends and blanks between the wrapping and the content. -/
  lead : Text
  body : Text
  tail : Text

def startsWrapped (t : Text) : Bool :=
  "<!--".toList.isPrefixOf t || "<![CDATA[".toList.isPrefixOf t

def wrapHead? (inner : Text) : Option Text :=
  if "<!--".toList.isPrefixOf inner then some (inner.takeWhile (· != '\n'))
  else if "<![CDATA[".toList.isPrefixOf inner then some "<![CDATA[".toList
  else none

def unwrap? (t : Text) : Option Wrapped :=
  let whole := if t.getLast? = some '\n' then t.dropLast else t
  let inner := whole.take (whole.length - 3)
  let tail := whole.drop (whole.length - 3)
  if tail = "-->".toList ∨ tail = "]]>".toList then
    (wrapHead? inner).map fun head =>
      let rest := inner.drop head.length
      let isLead (c : Char) : Bool := isSpace c || c == '\n'
      { head, lead := rest.takeWhile isLead, body := rest.dropWhile isLead, tail }
  else none

/-- The blanks in front of the content, on its own line; none if the content starts on the line of
the wrapping or without blanks. -/
def Wrapped.indentation? (w : Wrapped) : Option Text :=
  if w.lead.contains '\n' then
    let lead := if w.lead.getLast? = some '\n' then w.lead.dropLast else w.lead
    let blanks := (lead.reverse.takeWhile isSpace).reverse
    if blanks.isEmpty then none else some blanks
  else none

/-- The text with every line but the first moved: its leading `white` is dropped and `indentation`
put before it. -/
def reindent (white indentation t : Text) : Text :=
  let t := if white.isEmpty then t else Text.replaceAll ('\n' :: white) ['\n'] t
  indentation ++ Text.replaceAll ['\n'] ('\n' :: indentation) t

end EmbeddedMarkup.Html.Embedded
