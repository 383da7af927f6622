import EmbeddedMarkup.Style.Setting
import EmbeddedMarkup.Text.Identifier
import EmbeddedMarkup.Text.NormalForm

/-!
# Named settings

Settings are values by name, in the order in which they were given. Before they are read they are
brought into one form: a hyphen in a name becomes an underscore, and the settings grouped under the
name of a language are laid over the general ones. Every name must then be an identifier that is
not reserved and does not start with an underscore, and no two names may have the same normal form.

The readers `flag`, `characters` and `items` take a value of any shape, and `number` refuses only an
infinity. `choices` and `choice` want what is on offer. Each reader has a form whose default, and
whose offer, may be of any shape.
-/

namespace EmbeddedMarkup.Style

inductive SettingError where
  | notIdentifier (name : Text)
  | reserved (name : Text)
  | underscore (name : Text)
  /-- The settings of a language are no mapping, and their items are no indices either. -/
  | notMapping
  /-- The settings of a language are a list, and one of its items points beyond it. -/
  | noSuchItem
  | repeated (name : Text)
  | infinite
  | wrongShape
  | noFirst
  | noChoices
  | badDefault
  | notOffered (name : Text) (offered given : Setting)
  | notSingle (name : Text) (offered given : Setting)

namespace SettingError

def invalidValue (name : Text) (rule : String) (offered given : Setting) : Text :=
  "Invalid Option Value: The option '".toList ++ name ++ rule.toList ++
    offered.text ++ "\nYou passed in: '".toList ++ given.text ++ ['\'']

def message : SettingError → Text
  | notIdentifier name =>
      "Type names and field names must be valid identifiers: ".toList ++ Text.quoted name
  | reserved name =>
      "Type names and field names cannot be a keyword: ".toList ++ Text.quoted name
  | underscore name =>
      "Field names cannot start with an underscore: ".toList ++ Text.quoted name
  | notMapping => []
  | noSuchItem => "list index out of range".toList
  | repeated name =>
      "duplicate argument '".toList ++ name ++ "' in function definition (<string>, line 1)".toList
  | infinite => "cannot convert float infinity to integer".toList
  | wrongShape => []
  | noFirst => ['0']
  | noChoices => "Selection list cannot be empty.".toList
  | badDefault => "Invalid Default Value!".toList
  | notOffered name offered given =>
      invalidValue name "' can contain only the following values:\n" offered given
  | notSingle name offered given =>
      invalidValue name "' can only be one of the following values:\n" offered given

end SettingError

abbrev Settings := List (Text × Setting)

namespace Settings

def get? (s : Settings) (name : Text) : Option Setting := s.lookup name

def put (name : Text) (value : Setting) : Settings → Settings
  | [] => [(name, value)]
  | (n, v) :: rest => if n = name then (n, value) :: rest else (n, v) :: put name value rest

def erase (name : Text) (s : Settings) : Settings := s.filter fun e => e.1 != name

def plainName (name : Text) : Text := name.map fun c => if c = '-' then '_' else c

/-- Gives every name with a hyphen its plain form. A renamed setting takes the place of one that has
the plain name already, and otherwise comes last. -/
def normalize (s : Settings) : Settings :=
  (s.filter fun e => e.1.contains '-').foldl
    (fun acc e => put (plainName e.1) e.2 (erase e.1 acc)) s

/-- Lays the items of a list over the settings, each under the name of its index. -/
def overlayItems (all : List Setting) : List Setting → Settings → Except SettingError Settings
  | [], s => .ok s
  | v :: vs, s =>
      let index? : Option Int :=
        match v with
        | .int n => some n
        | .bool b => some (if b then 1 else 0)
        | _ => none
      match index? with
      | none => .error .notMapping
      | some i =>
          match itemAt? all i with
          | none => .error .noSuchItem
          | some value => overlayItems all vs (put v.text value s)

def overlay (group : Setting) (s : Settings) : Except SettingError Settings :=
  match group with
  | .dict fields => .ok (fields.foldl (fun acc e => put e.1 e.2 acc) s)
  | .list items => overlayItems items items s
  | _ => .error .notMapping

def checkForms : Settings → Except SettingError Unit
  | [] => .ok ()
  | (name, _) :: rest =>
      if !Text.isIdentifier name then .error (.notIdentifier name)
      else if Text.isReserved name then .error (.reserved name)
      else checkForms rest

def checkUnderscores : Settings → Except SettingError Unit
  | [] => .ok ()
  | (name, _) :: rest =>
      if name.head? = some '_' then .error (.underscore name) else checkUnderscores rest

def checkRepeats (before : List Text) : Settings → Except SettingError Unit
  | [] => .ok ()
  | (name, _) :: rest =>
      let n := Text.normalName name
      if before.contains n then .error (.repeated n) else checkRepeats (n :: before) rest

/-- The settings for one language: normalized, with the language's group laid over them, and with
all names checked. -/
def merge (s : Settings) (language : Option Text) : Except SettingError Settings := do
  let s := normalize s
  let merged ←
    match language with
    | none => .ok s
    | some l =>
        match s.get? l with
        | none => .ok s
        | some group => if group.isTrue then overlay group (erase l s) else .ok s
  checkForms merged
  checkUnderscores merged
  checkRepeats [] merged
  .ok merged

def methodNames : List String :=
  ["count", "index", "_asdict", "_make", "_replace", "__add__", "__class__", "__class_getitem__",
    "__contains__", "__delattr__", "__dir__", "__eq__", "__format__", "__ge__", "__getattribute__",
    "__getitem__", "__getnewargs__", "__getstate__", "__gt__", "__hash__", "__init__",
    "__init_subclass__", "__iter__", "__le__", "__len__", "__lt__", "__mul__", "__ne__", "__new__",
    "__reduce__", "__reduce_ex__", "__repr__", "__rmul__", "__setattr__", "__sizeof__", "__str__",
    "__subclasshook__"]

/-- The names of all settings, in parentheses behind the name of the record. -/
def description (s : Settings) : Text :=
  let names := Text.join [',', ' '] (s.map (·.1))
  "CustomOptions(".toList ++ names ++ (if s.length = 1 then [',', ')'] else [')'])

def member? (s : Settings) (name : Text) : Option Setting :=
  if methodNames.contains (String.ofList name) then some .method
  else
    match String.ofList name with
    | "_fields" | "__match_args__" => some (.tuple (s.map fun e => .str e.1))
    | "__slots__" => some (.tuple [])
    | "_field_defaults" => some (.dict [])
    | "__doc__" => some (.str s.description)
    | _ => none

def valueOr (s : Settings) (name : Text) (default : Setting) : Setting :=
  ((s.get? name).or (s.member? name)).getD default

def flagOr (s : Settings) (name : Text) (default : Setting) : Bool :=
  (s.valueOr name default).isTrue

def flag (s : Settings) (name : Text) (default : Bool) : Bool := s.flagOr name (.bool default)

def charactersOr (s : Settings) (name : Text) (default : Setting) : Text :=
  (s.valueOr name default).characters

def characters (s : Settings) (name : Text) (default : Text) : Text :=
  s.charactersOr name (.str default)

def numberOf (v : Setting) : Except SettingError Int :=
  if v.isInfinite then .error .infinite else .ok (v.toInt?.getD 0)

def number (s : Settings) (name : Text) (default : Int) : Except SettingError Int :=
  match s.valueOr name (.int default) with
  | .null => .ok default
  | v => numberOf v

def numberOr (s : Settings) (name : Text) (default : Setting) : Except SettingError Setting :=
  match s.valueOr name default with
  | .null => .ok default
  | v => (numberOf v).map .int

/-- Whether a character can stand in a name in a list of names written as one text. -/
def isNameChar (c : Char) : Bool :=
  c.isAlphanum || c == '_' || c == '/' || c == '-'

def namesIn (t : Text) : List Setting := (Text.splitRuns (fun c => !isNameChar c) t).map .str

/-- The items that a value stands for: a list as it is, or the names in a text; nothing stands for
the default. -/
def itemsOf (default : Setting) : Setting → Setting
  | .null => default
  | .list items => .list items
  | .str s => .list (namesIn s)
  | _ => .list []

def itemsOr (s : Settings) (name : Text) (default : Setting) : Setting :=
  itemsOf default (s.valueOr name default)

def items (s : Settings) (name : Text) (default : List Setting) : List Setting :=
  match s.itemsOr name (.list default) with
  | .list items => items
  | _ => []

def contents? : Setting → Option (List Setting)
  | .list items => some items
  | .tuple items => some items
  | .str s => some (s.map fun c => .str [c])
  | .dict fields => some (fields.map fun e => .str e.1)
  | _ => none

/-- Whether an item is on offer: in a list, as a piece of a text, or as a name in a mapping. -/
def isOffered (offered item : Setting) : Except SettingError Bool :=
  match offered, item with
  | .list items, v => .ok (items.any (Setting.same v))
  | .str t, .str s => .ok (Text.includes s t)
  | .dict fields, .str s => .ok (fields.any fun e => e.1 == s)
  | .dict _, .list _ => .error .wrongShape
  | .dict _, .dict _ => .error .wrongShape
  | .dict _, _ => .ok false
  | _, _ => .error .wrongShape

def allOffered (offered : Setting) : List Setting → Except SettingError Bool
  | [] => .ok true
  | v :: vs => do
      if ← isOffered offered v then allOffered offered vs else .ok false

def isSelection (offered given : Setting) : Except SettingError Bool :=
  match contents? given with
  | none => .error .wrongShape
  | some [] => .ok false
  | some items =>
      match contents? offered with
      | none => .error .wrongShape
      | some _ => allOffered offered items

def first (v : Setting) : Except SettingError Setting :=
  match v with
  | .dict _ => .error .noFirst
  | v =>
      match contents? v with
      | some (item :: _) => .ok item
      | _ => .error .wrongShape

/-- The default of a choice: the given one, or else the first item on offer. -/
def defaultChoice (offered default : Setting) : Except SettingError Setting := do
  if !offered.isTrue then throw .noChoices
  let default ← if default.isTrue then pure default else (first offered).map fun v => .list [v]
  if ← isSelection offered default then return default else throw .badDefault

def choicesOr (s : Settings) (name : Text) (offered default : Setting) :
    Except SettingError Setting := do
  let given := s.itemsOr name (← defaultChoice offered default)
  if ← isSelection offered given then return given
  else throw (.notOffered name offered (s.valueOr name .null))

/-- The single choice of a setting, with an offer and a default of any shape. -/
def choiceOr (s : Settings) (name : Text) (offered default : Setting) :
    Except SettingError Setting := do
  let given ← s.choicesOr name offered default
  match contents? given with
  | some [_] => first given
  | _ => throw (.notSingle name offered (s.valueOr name .null))

def texts : Setting → List Text
  | .str s => [s]
  | .list items =>
      items.filterMap fun
        | .str s => some s
        | _ => none
  | _ => []

/-- The choices of a setting, all of them on offer. Without a default the first choice is it. -/
def choices (s : Settings) (name : Text) (offered default : List Text) :
    Except SettingError (List Text) :=
  (s.choicesOr name (.ofNames offered) (.ofNames default)).map texts

def choice (s : Settings) (name : Text) (offered default : List Text) :
    Except SettingError Text :=
  (s.choiceOr name (.ofNames offered) (.ofNames default)).map fun v => (texts v).flatten

end Settings

end EmbeddedMarkup.Style
