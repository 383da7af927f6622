import EmbeddedMarkup.Run.Platform
import EmbeddedMarkup.Run.Report

/-!
# Commands

A command names sources and says how they are formatted: which formatters are used, for the literals
of which functions, and with which settings. All formatters are given the same settings.
-/

namespace EmbeddedMarkup.Run

open Style (Setting Settings)

/-- Whether a formatter is used, and the functions whose literals are for it. -/
structure Use where
  isOn : Bool := true
  trigger : Option NameTest

def usualSettings : Settings :=
  [("preserve_newlines", .bool true), ("indent_size", .int 4), ("end_with_newline", .bool false),
   ("indent_empty_lines", .bool false), ("indent_inner_html", .bool false),
   ("indent_body_inner_html", .bool true), ("indent_head_inner_html", .bool true),
   ("indent_scripts", .str "normal".toList), ("wrap_attributes", .str "preserve-aligned".toList),
   ("wrap_attributes_min_attrs", .int 2), ("max_preserve_newlines", .int 1),
   ("operator_position", .str "before-newline".toList), ("selector_separator_newline", .bool true),
   ("newline_between_rules", .bool true)].map fun (k, v) => (k.toList, v)

/-- What is to be done. -/
structure Command where
  sources : List Text := []
  check : Bool := false
  quiet : Bool := false
  verbose : Bool := false
  /-- Whether results are checked before they are used. -/
  verify : Bool := true
  markup : Use := { trigger := some Source.Formatter.markupTrigger }
  javascript : Use := { trigger := some Source.Formatter.scriptTrigger }
  css : Use := { trigger := some Source.Formatter.styleTrigger }
  braceStyle : List Text := Text.lits ["collapse", "preserve-inline"]
  settings : Settings := usualSettings

namespace Command

def report (c : Command) : Report :=
  { check := c.check, quiet := c.quiet, verbose := c.verbose }

/-- The settings for the formatters. -/
def allSettings (c : Command) : Settings :=
  [("indent_with_tabs", .bool false), ("brace-style", .str (Text.join [','] c.braceStyle)),
    ("eol", .str ['\n'])].foldl (fun all e => all.put e.1.toList e.2) c.settings

/-- The formatters in the order in which they are tried. Markup has scripts and styles in it, so its
formatter is given the other two. -/
def formatters (c : Command) (b : Beautifiers) : List Source.Formatter :=
  let javascript := b.javascript c.allSettings
  let css := b.css c.allSettings
  let others : Html.Formatters :=
    { javascript := if c.javascript.isOn then some javascript else none
      css := if c.css.isOn then some css else none }
  (if c.markup.isOn then [.markup c.markup.trigger c.allSettings others] else []) ++
  (if c.javascript.isOn then [.code c.javascript.trigger javascript] else []) ++
  (if c.css.isOn then [.code c.css.trigger css] else [])

end Command

end EmbeddedMarkup.Run
