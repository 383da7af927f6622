import EmbeddedMarkup.Decimal.Number
import EmbeddedMarkup.Text.Digit
import EmbeddedMarkup.Text.Quoted

/-!
# Values for markup

What a page author passes to the functions that build markup: numbers, plain text, text that is
already known to be safe, containers of these, and objects that bring their own markup. Plain text
and safe text are two constructors, so that the one decision this library turns on, to escape or
not to escape, is a case distinction.

A number is a plain one, or of a class of its own, which says in its own words how the number is
written. A plain whole number of too many digits cannot be written at all (`Value.isWritable`).

A generator is given by the items it yields and by what stops it: `stop` is `none` if it ends, and
otherwise the kind of failure it ends with.
-/

namespace EmbeddedMarkup.Safe

inductive Failure where
  | wrongType
  | wrongValue
  deriving DecidableEq, Repr

/-- How a number of a class of its own is written: on its own, in a template, and in a container. -/
structure Wording where
  shown : Text
  formatted : Text
  quoted : Text
  deriving DecidableEq, Repr

/-- A value that is passed to, or comes from, a function that builds markup. -/
inductive Value where
  | none
  | bool (b : Bool)
  | int (n : Int)
  | float (x : Float)
  | number (n : Decimal.Number) (w : Wording)
  | str (s : Text)
  | safe (s : Text)
  | bytes (bs : List UInt8)
  | list (items : List Value)
  | tuple (items : List Value)
  /-- A mapping in the order in which its keys were first given. -/
  | dict (entries : List (Value × Value))
  | generator (items : List Value) (stop : Option Failure)
  | markup (content : Value)
  | other
  deriving Inhabited

namespace Value

def isSafe : Value → Bool
  | safe _ => true
  | _ => false

def chars? : Value → Option Text
  | str s => some s
  | safe s => some s
  | _ => Option.none

/-- Whether a value counts as true: all do but nothing, false, zero and what is empty. -/
def isTrue : Value → Bool
  | none => false
  | bool b => b
  | int n => n != 0
  | float x => x != 0
  | number (.whole n) _ => n != 0
  | number (.float x) _ => x != 0
  | str s => !s.isEmpty
  | safe s => !s.isEmpty
  | bytes bs => !bs.isEmpty
  | list items => !items.isEmpty
  | tuple items => !items.isEmpty
  | dict entries => !entries.isEmpty
  | generator .. => true
  | markup _ => true
  | other => true

/-- The items that a value yields one by one, and the failure that stops it; `none` if the value has
no items. -/
def items? : Value → Option (List Value × Option Failure)
  | str s => some (s.map fun c => str [c], Option.none)
  | safe s => some (s.map fun c => str [c], Option.none)
  | bytes bs => some (bs.map fun b => int (Int.ofNat b.toNat), Option.none)
  | list items => some (items, Option.none)
  | tuple items => some (items, Option.none)
  | dict entries => some (entries.map (·.1), Option.none)
  | generator items stop => some (items, stop)
  | _ => Option.none

mutual

def quoted : Value → Text
  | none => "None".toList
  | bool b => if b then "True".toList else "False".toList
  | int n => Text.ofInt n
  | float x => Decimal.shown.text x
  | number _ w => w.quoted
  | str s => Text.quoted s
  | safe s => Text.quoted s
  | bytes bs => Text.quotedBytes bs
  | list items => '[' :: Text.join [',', ' '] (quotedItems items) ++ [']']
  | tuple items => Text.inParentheses (quotedItems items)
  | dict entries => '{' :: Text.join [',', ' '] (quotedEntries entries) ++ ['}']
  | generator .. => "<generator>".toList
  | markup _ => "<object>".toList
  | other => "<object>".toList

def quotedItems : List Value → List Text
  | [] => []
  | v :: vs => quoted v :: quotedItems vs

def quotedEntries : List (Value × Value) → List Text
  | [] => []
  | (k, v) :: rest => (quoted k ++ [':', ' '] ++ quoted v) :: quotedEntries rest

end

def text : Value → Text
  | str s => s
  | safe s => s
  | number _ w => w.shown
  | v => v.quoted

/-- The text of a value in a template. -/
def formatted : Value → Text
  | number _ w => w.formatted
  | v => v.text

mutual

/-- Whether all whole numbers that are part of the text of a value can be written. -/
def isWritable : Value → Bool
  | int n => Text.hasNumeral n
  | list items => areWritable items
  | tuple items => areWritable items
  | dict entries => entriesWritable entries
  | _ => true

def areWritable : List Value → Bool
  | [] => true
  | v :: vs => isWritable v && areWritable vs

def entriesWritable : List (Value × Value) → Bool
  | [] => true
  | (k, v) :: rest => isWritable k && isWritable v && entriesWritable rest

end

end Value

end EmbeddedMarkup.Safe
