import EmbeddedMarkup.Run.Command
import EmbeddedMarkup.Run.Path

/-!
# Arguments

The arguments of the program name the sources and set the options of a command. An option is written
with its name, or with a letter; a value follows it or is joined to it, and letters without values
may be joined together. Sources and options may be mixed, and after two hyphens everything is a
source.

Most options are settings of the formatters and go to them under their own names.
-/

namespace EmbeddedMarkup.Run

open Style (Setting Settings)

inductive Expects where
  | nothing (value : Bool)
  | number
  | text
  | pattern
  | word (words : List String)
  /-- One of several words, and the option may be given again. -/
  | words (words : List String)

structure Switch where
  names : List String
  target : String
  expects : Expects

def flag (name target : String) (value : Bool) : Switch := ⟨[name], target, .nothing value⟩

def toggle (name target : String) : List Switch :=
  [flag ("--" ++ name) target true, flag ("--no-" ++ name) target false]

def options : List Switch :=
  [⟨["-w", "--wrap-line-length"], "wrap_line_length", .number⟩,
   ⟨["-q", "--quiet"], "quiet", .nothing true⟩,
   ⟨["-v", "--verbose"], "verbose", .nothing true⟩,
   flag "--check" "check" true] ++
  toggle "ast-check" "ast_check" ++
  toggle "html" "html" ++ toggle "js" "js" ++ toggle "css" "css" ++
  [⟨["--html-trigger"], "html_trigger", .pattern⟩,
   ⟨["--js-trigger"], "js_trigger", .pattern⟩,
   ⟨["--css-trigger"], "css_trigger", .pattern⟩] ++
  toggle "preserve-newlines" "preserve_newlines" ++
  [⟨["--indent-size"], "indent_size", .number⟩,
   flag "--end-with-newline" "end_with_newline" true,
   flag "--indent-empty-lines" "indent_empty_lines" true,
   flag "--indent-inner-html" "indent_inner_html" true] ++
  toggle "indent-body-inner-html" "indent_body_inner_html" ++
  toggle "indent-head-inner-html" "indent_head_inner_html" ++
  [⟨["--indent-scripts"], "indent_scripts", .word ["keep", "separate", "normal"]⟩,
   ⟨["--wrap-attributes"], "wrap_attributes",
     .word ["auto", "force", "force-aligned", "force-expand-multiline", "aligned-multiple",
       "preserve", "preserve-aligned"]⟩,
   ⟨["--wrap-attributes-min-attrs"], "wrap_attributes_min_attrs", .number⟩,
   ⟨["--wrap-attributes-indent-size"], "wrap_attributes_indent_size", .number⟩,
   ⟨["--max-preserve-newlines"], "max_preserve_newlines", .number⟩,
   ⟨["--unformatted"], "unformatted", .text⟩,
   ⟨["--content-unformatted"], "content_unformatted", .text⟩,
   ⟨["--extra-liners"], "extra_liners", .text⟩,
   ⟨["--unformatted-content-delimiter"], "unformatted_content_delimiter", .text⟩,
   ⟨["--brace-style"], "brace_style",
     .words ["collapse", "expand", "end-expand", "none", "preserve-inline"]⟩,
   flag "--space-in-paren" "space_in_paren" true,
   flag "--space-in-empty-paren" "space_in_empty_paren" true,
   flag "--jslint-happy" "jslint_happy" true,
   flag "--space-after-anon-function" "space_after_anon_function" true,
   flag "--space-after-named-function" "space_after_named_function" true,
   flag "--unindent-chained-methods" "unindent_chained_methods" true,
   flag "--break-chained-methods" "break_chained_methods" true,
   flag "--keep-array-indentation" "keep_array_indentation" true,
   flag "--unescape-strings" "unescape_strings" true,
   flag "--e4x" "e4x" true,
   flag "--comma-first" "comma_first" true,
   ⟨["--operator-position"], "operator_position",
     .word ["before-newline", "after-newline", "preserve-newline"]⟩] ++
  toggle "selector-separator-newline" "selector_separator_newline" ++
  toggle "newline-between-rules" "newline_between_rules" ++
  [flag "--space-around-combinator" "space_around_combinator" true]

inductive UsageError where
  | noSuchOption (name : Text)
  | valueMissing (name : Text)
  | valueNotExpected (name : Text)
  | badValue (name value : Text)
  | noSuchPath (path : Text)
  deriving DecidableEq, Repr

/-- What a command line says. -/
structure Said where
  sources : List Text := []
  /-- What the options set; of several values for one name the last counts. -/
  values : Settings := []

def option? (name : Text) : Option Switch := options.find? fun o => o.names.any (·.toList == name)

def readValue (o : Switch) (name value : Text) : Except UsageError Setting :=
  match o.expects with
  | .nothing _ => .error (.valueNotExpected name)
  | .number =>
      match Text.readInt? value with
      | some n => .ok (.int n)
      | none => .error (.badValue name value)
  | .text => .ok (.str value)
  | .pattern =>
      match NameTest.ofText value with
      | .ok _ => .ok (.str value)
      | .error _ => .error (.badValue name value)
  | .word ws | .words ws =>
      if (Text.lits ws).contains value then .ok (.str value) else .error (.badValue name value)

namespace Said

def put (s : Said) (o : Switch) (v : Setting) : Said :=
  let target := o.target.toList
  match o.expects with
  | .words _ =>
      let before := match Settings.get? s.values target with
        | some (.list vs) => vs
        | _ => []
      { s with values := Settings.put target (.list (before ++ [v])) s.values }
  | _ => { s with values := Settings.put target v s.values }

end Said

/-- The options that joined letters stand for, up to one that takes the rest as its value. The last
part is a value that the next argument has to give. -/
def readLetters (s : Said) : Text → Except UsageError (Said × Option (Switch × Text))
  | [] => .ok (s, none)
  | c :: t =>
      let name := ['-', c]
      match option? name with
      | none => .error (.noSuchOption name)
      | some o =>
          match o.expects with
          | .nothing v => readLetters (s.put o (.bool v)) t
          | _ =>
              if t.isEmpty then .ok (s, some (o, name))
              else do return (s.put o (← readValue o name t), none)

/-- Reads an option. The last part is a value that the next argument has to give. -/
def readOption (s : Said) (arg : Text) : Except UsageError (Said × Option (Switch × Text)) :=
  if List.isPrefixOf ['-', '-'] arg then
    let name := arg.takeWhile (· != '=')
    let value? := if name.length < arg.length then some (arg.drop (name.length + 1)) else none
    match option? name with
    | none => .error (.noSuchOption name)
    | some o =>
        match o.expects, value? with
        | .nothing v, none => .ok (s.put o (.bool v), none)
        | .nothing _, some _ => .error (.valueNotExpected name)
        | _, some v => do return (s.put o (← readValue o name v), none)
        | _, none => .ok (s, some (o, name))
  else readLetters s (arg.drop 1)

def readArguments (s : Said) :
    (awaited : Option (Switch × Text)) → List Text → Except UsageError Said
  | none, [] => .ok s
  | some (_, name), [] => .error (.valueMissing name)
  | some (o, name), v :: rest => do readArguments (s.put o (← readValue o name v)) none rest
  | none, arg :: rest =>
      if arg = ['-', '-'] then .ok { s with sources := s.sources ++ rest }
      else if arg.head? = some '-' ∧ arg ≠ ['-'] then do
        let (s, awaited) ← readOption s arg
        readArguments s awaited rest
      else readArguments { s with sources := s.sources ++ [arg] } none rest

def ownTargets : List Text :=
  Text.lits
    ["quiet", "verbose", "check", "ast_check", "html", "js", "css", "html_trigger", "js_trigger",
     "css_trigger", "brace_style"]

namespace Said

def isOn (s : Said) (target : String) (usual : Bool) : Bool :=
  match Settings.get? s.values target.toList with
  | some v => v.isTrue
  | none => usual

/-- Whether a formatter is used, and for what. It has no trigger if the pattern is an empty text. -/
def use (s : Said) (name : String) (usual : Use) : Use where
  isOn := s.isOn name true
  trigger :=
    match Settings.get? s.values (name.toList ++ "_trigger".toList) with
    | some (.str t) => if t.isEmpty then none else (NameTest.ofText t).toOption
    | _ => usual.trigger

def command (s : Said) : Command :=
  let usual : Command := {}
  let given := s.values.filter fun e => !ownTargets.contains e.1
  { sources := s.sources
    check := s.isOn "check" false
    quiet := s.isOn "quiet" false
    verbose := s.isOn "verbose" false
    verify := s.isOn "ast_check" true
    markup := s.use "html" usual.markup
    javascript := s.use "js" usual.javascript
    css := s.use "css" usual.css
    braceStyle :=
      match Settings.get? s.values "brace_style".toList with
      | some (.list vs) => vs.map Setting.text
      | _ => usual.braceStyle
    settings := given.foldl (fun all e => all.put e.1 e.2) usual.settings }

end Said

def Command.checkSources (c : Command) (fs : Files) : Except UsageError Unit :=
  match c.sources.find? fun name => name != ['-'] && (name.isEmpty || !fs.has (.ofText name)) with
  | some name => .error (.noSuchPath name)
  | none => .ok ()

def Command.ofArguments (args : List Text) (fs : Files) : Except UsageError Command := do
  let c := (← readArguments {} none args).command
  c.checkSources fs
  return c

end EmbeddedMarkup.Run
