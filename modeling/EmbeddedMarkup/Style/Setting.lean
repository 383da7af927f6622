import EmbeddedMarkup.Decimal.Number
import EmbeddedMarkup.Text.Quoted

/-!
# Setting values

A setting is given as a value of any shape, and it is the reader of a setting who decides what the
value means: whether it counts as true, which number it stands for, which characters. `text` is the
form of a value in messages, where a text stands for itself and a text inside a list or a mapping is
quoted.

A record of settings has some members of its own besides the settings, such as the tuple of its
names and a few methods. A reader that asks for one of them by its name gets it as a value, too.
-/

namespace EmbeddedMarkup.Style

inductive Setting where
  | null
  | bool (b : Bool)
  | int (n : Int)
  | float (x : Float)
  | str (s : Text)
  | list (items : List Setting)
  | tuple (items : List Setting)
  | dict (fields : List (Text × Setting))
  | method
  deriving Inhabited

namespace Setting

/-- Whether a value counts as true: all do but nothing, false, zero and what is empty. -/
def isTrue : Setting → Bool
  | null => false
  | bool b => b
  | int n => n != 0
  | float x => x != 0
  | str s => !s.isEmpty
  | list items => !items.isEmpty
  | tuple items => !items.isEmpty
  | dict fields => !fields.isEmpty
  | method => true

def toInt? : Setting → Option Int
  | bool b => some (if b then 1 else 0)
  | int n => some n
  | float x => Decimal.truncate? x
  | str s => Text.readInt? s
  | _ => none

def isInfinite : Setting → Bool
  | float x =>
      match Decimal.parts x with
      | .infinite _ => true
      | _ => false
  | _ => false

def number? : Setting → Option Decimal.Number
  | bool b => some (.whole (if b then 1 else 0))
  | int n => some (.whole n)
  | float x => some (.float x)
  | _ => none

/-- The characters that a value stands for: in a text the two-character forms of carriage return,
line feed and tab are replaced by the characters; any other value stands for none. -/
def characters : Setting → Text
  | str s =>
      Text.replaceAll ['\\', 't'] ['\t']
        (Text.replaceAll ['\\', 'n'] ['\n'] (Text.replaceAll ['\\', 'r'] ['\r'] s))
  | _ => []

def isStr (s : Text) : Setting → Bool
  | str t => s == t
  | _ => false

mutual

/-- Whether two values are equal; numbers are compared by what they amount to. -/
def same : Setting → Setting → Bool
  | null, null => true
  | str s, str t => s == t
  | list xs, list ys => sameItems xs ys
  | tuple xs, tuple ys => sameItems xs ys
  | dict fs, dict gs => fs.length == gs.length && sameFields fs gs
  | v, w =>
      match v.number?, w.number? with
      | some m, some n => m.same n
      | _, _ => false

def sameItems : List Setting → List Setting → Bool
  | [], [] => true
  | v :: vs, w :: ws => same v w && sameItems vs ws
  | _, _ => false

/-- Whether every field has an equal one of the same name on the other side. -/
def sameFields : List (Text × Setting) → List (Text × Setting) → Bool
  | [], _ => true
  | (k, v) :: fs, gs =>
      (match gs.lookup k with
        | some w => same v w
        | none => false) && sameFields fs gs

end

mutual

def quoted : Setting → Text
  | null => "None".toList
  | bool b => if b then "True".toList else "False".toList
  | int n => Text.ofInt n
  | float x => Decimal.shown.text x
  | str s => Text.quoted s
  | list items => '[' :: Text.join [',', ' '] (quotedItems items) ++ [']']
  | tuple items => Text.inParentheses (quotedItems items)
  | dict fields => '{' :: Text.join [',', ' '] (quotedFields fields) ++ ['}']
  | method => "<method>".toList

def quotedItems : List Setting → List Text
  | [] => []
  | v :: vs => quoted v :: quotedItems vs

def quotedFields : List (Text × Setting) → List Text
  | [] => []
  | (k, v) :: rest => (Text.quoted k ++ [':', ' '] ++ quoted v) :: quotedFields rest

end

def text : Setting → Text
  | str s => s
  | v => v.quoted

def ofNames (names : List Text) : Setting := list (names.map str)

end Setting

end EmbeddedMarkup.Style
