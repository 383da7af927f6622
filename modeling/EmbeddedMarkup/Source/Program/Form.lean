import EmbeddedMarkup.Source.Program.Rule

/-!
# Forms

A rule has one or more forms, which are tried in order. A form is a sequence of items, and tells
what is made of the values of these items once all of them are read. Items are words and signs,
other rules, and items that may be missing, be repeated, or are only looked at.
-/

namespace EmbeddedMarkup.Source.Program

inductive Made where
  | value (v : Value)
  /-- Nothing, and no other form of the rule is tried. -/
  | refused
  /-- A fault, on the given line or on that of the last token looked at. -/
  | fault (cause : Cause) (line : Option Nat)
  /-- A fault that was found in an expression of a template. -/
  | found (f : Fault)

structure Found where
  values : List Value
  span : Span
  inBrackets : Bool
  /-- How text literals that follow each other are read. -/
  literal : List Token → Made

namespace Found

def value (a : Found) (i : Nat) : Value := a.values.getD i .nothing

def nodes (a : Found) (i : Nat) : List Node := (a.value i).nodes

def node (a : Found) (i : Nat) : Node := (a.nodes i).headD (listOf [])

def text (a : Found) (i : Nat) : Text := (a.value i).text

def line (a : Found) (i : Nat) : Nat := (a.value i).line

def has (a : Found) (i : Nat) : Bool :=
  match a.value i with
  | .nothing => false
  | _ => true

def group (a : Found) (label : Label) (parts : List Node) : Made :=
  .value (.node (.group a.span label parts))

def other (a : Found) (label : String) (parts : List Node) : Made :=
  a.group (.other label.toList) parts

def faultAt (a : Found) (i : Nat) (cause : Cause) : Made := .fault cause (some (a.line i))

def faultHere (_ : Found) (cause : Cause) : Made := .fault cause none

def pass (i : Nat) (a : Found) : Made := .value (a.value i)

def all (a : Found) : Made := .value (.list a.values)

end Found

inductive Terminal where
  | name
  | number
  | string
  | newline
  | indent
  | dedent
  | stop
  /-- A name that starts one of the words that are reserved in some places only. -/
  | softWord
  deriving DecidableEq, Repr

mutual

inductive Item where
  | rule (r : Rule)
  | word (t : Text)
  | softWord (t : Text)
  | needed (t : Text)
  | terminal (k : Terminal)
  | opt (i : Item)
  | many (i : Item)
  | oneOrMore (i : Item)
  /-- One or more items with another one between them. -/
  | separated (separator i : Item)
  | ahead (i : Item)
  | notAhead (i : Item)
  | choice (forms : List Form)
  | commit

/-- A form of a rule. A form that reads a mistake is only tried when there is a fault. -/
inductive Form where
  | mk (items : List Item) (make : Found → Made) (isMistake : Bool)

end

instance : Coe String Item := ⟨fun s => .word s.toList⟩

instance : Coe StatementRule Item := ⟨fun r => .rule (.statement r)⟩

instance : Coe PatternRule Item := ⟨fun r => .rule (.pattern r)⟩

instance : Coe ExpressionRule Item := ⟨fun r => .rule (.expression r)⟩

instance : Coe TargetRule Item := ⟨fun r => .rule (.target r)⟩

instance : Coe MistakeRule Item := ⟨fun r => .rule (.mistake r)⟩

def form (items : List Item) (make : Found → Made) : Form := .mk items make false

def pick (i : Nat) (items : List Item) : Form := .mk items (Found.pass i) false

def sequence (items : List Item) : Form := .mk items Found.all false

def just (i : Item) : Form := pick 0 [i]

def mistake (i : Item) : Form := .mk [i] (Found.pass 0) true

namespace Item

def oneOf (is : List Item) : Item := .choice (is.map just)

def picked (i : Nat) (items : List Item) : Item := .choice [pick i items]

def maybe (i : Nat) (items : List Item) : Item := .opt (picked i items)

def soft (s : String) : Item := .softWord s.toList

def need (s : String) : Item := .needed s.toList

def afterWords (words : List String) (items : List Item) : List Item :=
  words.map (fun w => .word w.toList) ++ items

def commas (i : Item) : Item := .separated "," i

def aName : Item := .terminal .name

def aNumber : Item := .terminal .number

def aText : Item := .terminal .string

def newline : Item := .terminal .newline

def indent : Item := .terminal .indent

def dedent : Item := .terminal .dedent

end Item

end EmbeddedMarkup.Source.Program
