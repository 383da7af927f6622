import EmbeddedMarkup.Style.Settings

/-!
# Styles

A style holds the settings in the form in which formatting uses them. `Style.General` has what
every language shares, `Style.Markup` adds what concerns markup. Both are read from named settings,
which are kept beside them: embedded code is formatted from the same settings.
-/

namespace EmbeddedMarkup.Style

/-- The part of a style that all languages share. -/
structure General where
  settings : Settings
  disabled : Bool
  /-- The line end of the result; `auto` takes the first one of the text. -/
  eol : Text
  endWithNewline : Bool
  indentSize : Int
  indentChar : Text
  indentLevel : Int
  preserveNewlines : Bool
  maxPreserveNewlines : Int
  indentWithTabs : Bool
  /-- The longest line that is not wrapped; zero for no limit. -/
  wrapLineLength : Int
  indentEmptyLines : Bool
  templating : List Text

def templatingChoices : List Text :=
  Text.lits ["auto", "none", "angular", "django", "erb", "handlebars", "php", "smarty"]

def General.ofMerged (s : Settings) : Except SettingError General := do
  let indentSize ← s.number "indent_size".toList 4
  let indentChar := s.characters "indent_char".toList [' ']
  let indentLevel ← s.number "indent_level".toList 0
  let preserveNewlines := s.flag "preserve_newlines".toList true
  let maxPreserve ← s.number "max_preserve_newlines".toList 32786
  let tabs := s.flag "indent_with_tabs".toList (indentChar == ['\t'])
  let wrapLineLength ← s.number "wrap_line_length".toList (← s.number "max_char".toList 0)
  let templating ← s.choices "templating".toList templatingChoices ["auto".toList]
  return {
    settings := s
    disabled := s.flag "disabled".toList false
    eol := s.characters "eol".toList "auto".toList
    endWithNewline := s.flag "end_with_newline".toList false
    indentSize := if tabs && indentSize == 1 then 4 else indentSize
    indentChar := if tabs then ['\t'] else indentChar
    indentLevel
    preserveNewlines
    maxPreserveNewlines := if preserveNewlines then maxPreserve else 0
    indentWithTabs := tabs
    wrapLineLength
    indentEmptyLines := s.flag "indent_empty_lines".toList false
    templating }

/-- Reads a style from settings, with the group of one language laid over the rest. -/
def General.ofSettings (s : Settings) (language : Option Text) : Except SettingError General := do
  General.ofMerged (← s.merge language)

inductive WrapAttributes where
  | auto
  | force
  | forceAligned
  | forceExpandMultiline
  | alignedMultiple
  | preserve
  | preserveAligned
  deriving DecidableEq

namespace WrapAttributes

def name : WrapAttributes → Text
  | auto => "auto".toList
  | force => "force".toList
  | forceAligned => "force-aligned".toList
  | forceExpandMultiline => "force-expand-multiline".toList
  | alignedMultiple => "aligned-multiple".toList
  | preserve => "preserve".toList
  | preserveAligned => "preserve-aligned".toList

def all : List WrapAttributes :=
  [auto, force, forceAligned, forceExpandMultiline, alignedMultiple, preserve, preserveAligned]

def ofName (n : Text) : WrapAttributes := (all.find? fun w => w.name == n).getD auto

def isForced : WrapAttributes → Bool
  | force | forceAligned | forceExpandMultiline => true
  | _ => false

def isPreserved : WrapAttributes → Bool
  | preserve | preserveAligned => true
  | _ => false

def isAligned : WrapAttributes → Bool
  | forceAligned | alignedMultiple | preserveAligned => true
  | _ => false

end WrapAttributes

inductive IndentScripts where
  | normal
  | keep
  | separate
  deriving DecidableEq

namespace IndentScripts

def name : IndentScripts → Text
  | normal => "normal".toList
  | keep => "keep".toList
  | separate => "separate".toList

def all : List IndentScripts := [normal, keep, separate]

def ofName (n : Text) : IndentScripts := (all.find? fun w => w.name == n).getD normal

end IndentScripts

/-- A list of element names as given in the settings; items that are no texts name nothing. -/
abbrev Names := List Setting

def Names.has (names : Names) (name : Text) : Bool := names.any fun v => v.isStr name

structure Markup extends General where
  indentInnerHtml : Bool
  indentBodyInnerHtml : Bool
  indentHeadInnerHtml : Bool
  /-- Whether the blocks of Handlebars are indented like elements. -/
  indentHandlebars : Bool
  wrapAttributes : WrapAttributes
  /-- The least number of attributes that is put on lines of their own. -/
  wrapAttributesMinAttrs : Int
  /-- The indentation of attributes on lines of their own. -/
  wrapAttributesIndentSize : Int
  extraLiners : Names
  inline : Names
  inlineCustomElements : Bool
  voidElements : Names
  unformatted : Names
  contentUnformatted : Names
  unformattedContentDelimiter : Text
  /-- Where the content of scripts and style sheets is put. -/
  indentScripts : IndentScripts

namespace Markup

def defaultInline : List Text :=
  Text.lits
    ["a", "abbr", "area", "audio", "b", "bdi", "bdo", "br", "button", "canvas", "cite", "code",
      "data", "datalist", "del", "dfn", "em", "embed", "i", "iframe", "img", "input", "ins", "kbd",
      "keygen", "label", "map", "mark", "math", "meter", "noscript", "object", "output",
      "progress", "q", "ruby", "s", "samp", "select", "small", "span", "strong", "sub", "sup",
      "svg", "template", "textarea", "time", "u", "var", "video", "wbr", "text", "acronym", "big",
      "strike", "tt"]

def defaultVoid : List Text :=
  Text.lits
    ["area", "base", "br", "col", "embed", "hr", "img", "input", "keygen", "link", "menuitem",
      "meta", "param", "source", "track", "wbr", "!doctype", "?xml", "basefont", "isindex"]

def namesOf (ss : List Text) : List Setting := ss.map .str

def autoTemplating (given : List Text) : List Text :=
  if given = ["auto".toList] then Text.lits ["django", "erb", "handlebars", "php"] else given

def ofSettings (given : Settings) : Except SettingError Markup := do
  let s ← given.merge (some "html".toList)
  let general ← General.ofMerged s
  let wrap ← s.choice "wrap_attributes".toList (WrapAttributes.all.map WrapAttributes.name) []
  let minAttrs ← s.number "wrap_attributes_min_attrs".toList 2
  let attrsIndentSize ← s.number "wrap_attributes_indent_size".toList general.indentSize
  let scripts ← s.choice "indent_scripts".toList (IndentScripts.all.map IndentScripts.name) []
  return {
    general with
    templating := autoTemplating general.templating
    indentInnerHtml := s.flag "indent_inner_html".toList false
    indentBodyInnerHtml := s.flag "indent_body_inner_html".toList true
    indentHeadInnerHtml := s.flag "indent_head_inner_html".toList true
    indentHandlebars := s.flag "indent_handlebars".toList true
    wrapAttributes := .ofName wrap
    wrapAttributesMinAttrs := minAttrs
    wrapAttributesIndentSize := attrsIndentSize
    extraLiners :=
      s.items "extra_liners".toList (namesOf (Text.lits ["head", "body", "/html"]))
    inline := s.items "inline".toList (namesOf defaultInline)
    inlineCustomElements := s.flag "inline_custom_elements".toList true
    voidElements := s.items "void_elements".toList (namesOf defaultVoid)
    unformatted := s.items "unformatted".toList []
    contentUnformatted :=
      s.items "content_unformatted".toList (namesOf (Text.lits ["pre", "textarea"]))
    unformattedContentDelimiter := s.characters "unformatted_content_delimiter".toList []
    indentScripts := .ofName scripts }

/-- The style for a further text of the same document: the same settings, with plain line ends. -/
def forEmbedded (style : Markup) : Except SettingError Markup :=
  ofSettings (style.settings.put "eol".toList (.str ['\n']))

end Markup

end EmbeddedMarkup.Style
