import EmbeddedMarkup.Safe.Content

/-!
# JSON

The JSON text of a value, in ASCII and without white space: a code point outside the printable ASCII
range is written by its code units, two of them for one beyond the basic plane.

A string of JSON is a sequence of code points. Those that are halves of pairs are no characters, so
they are in none of the texts here, but there may be some in a string.
-/

namespace EmbeddedMarkup.Safe

namespace Json

/-- What can be given to be written: JSON values, keys that are turned into strings, and anything
else. -/
inductive Tree where
  | null
  | bool (b : Bool)
  | int (n : Int)
  | float (x : Float)
  | string (codes : List Nat)
  | list (items : List Tree)
  | object (members : List (Tree × Tree))
  | other
  deriving Inhabited

def codes (t : Text) : List Nat := t.map Char.toNat

mutual

def Tree.ofValue : Value → Tree
  | .none => .null
  | .bool b => .bool b
  | .int n => .int n
  | .float x => .float x
  | .number (.whole n) _ => .int n
  | .number (.float x) _ => .float x
  | .str s => .string (codes s)
  | .safe s => .string (codes s)
  | .list items => .list (Tree.ofItems items)
  | .tuple items => .list (Tree.ofItems items)
  | .dict entries => .object (Tree.ofEntries entries)
  | _ => .other

def Tree.ofItems : List Value → List Tree
  | [] => []
  | v :: vs => .ofValue v :: Tree.ofItems vs

def Tree.ofEntries : List (Value × Value) → List (Tree × Tree)
  | [] => []
  | (k, v) :: rest => (.ofValue k, .ofValue v) :: Tree.ofEntries rest

end

def unitText (n : Nat) : Text := '\\' :: 'u' :: Text.hexDigits 4 n

/-- The code points that are written by a letter. -/
def shortForms : List (Char × Char) :=
  [('"', '"'), ('\\', '\\'), ('\n', 'n'), ('\r', 'r'), ('\t', 't'), ('\x0c', 'f'), ('\x08', 'b')]

def shortEscape? (n : Nat) : Option Char :=
  shortForms.findSome? fun (c, d) => if n = c.toNat then some d else none

def codeText (n : Nat) : Text :=
  match shortEscape? n with
  | some d => ['\\', d]
  | none =>
      if ' '.toNat ≤ n ∧ n ≤ '~'.toNat then [Char.ofNat n]
      else if n < 0x10000 then unitText n
      else
        let n := n - 0x10000
        unitText (0xd800 + n / 0x400) ++ unitText (0xdc00 + n % 0x400)

def stringText (ns : List Nat) : Text := '"' :: ns.flatMap codeText ++ ['"']

def intText (n : Int) : Except CallError Text := (Value.int n).write

def boolText (b : Bool) : Text := if b then "true".toList else "false".toList

/-- The string that a key is turned into. -/
def keyCodes : Tree → Except CallError (List Nat)
  | .null => .ok (codes "null".toList)
  | .bool b => .ok (codes (boolText b))
  | .int n => (intText n).map codes
  | .float x => .ok (codes (Decimal.exchanged.text x))
  | .string ns => .ok ns
  | _ => .error .wrongType

mutual

def Tree.text : Tree → Except CallError Text
  | null => .ok "null".toList
  | bool b => .ok (boolText b)
  | int n => intText n
  | float x => .ok (Decimal.exchanged.text x)
  | string ns => .ok (stringText ns)
  | list items => do return '[' :: Text.join [','] (← itemTexts items) ++ [']']
  | object members => do return '{' :: Text.join [','] (← memberTexts members) ++ ['}']
  | other => .error .wrongType

def Tree.itemTexts : List Tree → Except CallError (List Text)
  | [] => .ok []
  | t :: ts => do return (← text t) :: (← itemTexts ts)

def Tree.memberTexts : List (Tree × Tree) → Except CallError (List Text)
  | [] => .ok []
  | (k, t) :: rest => do
      let key ← keyCodes k
      return (stringText key ++ ':' :: (← text t)) :: (← memberTexts rest)

end

/-- The JSON text, escaped. -/
def Tree.attribute (t : Tree) : Except CallError Value := t.text.map fun x => .safe (escape x)

end Json

def jsonAttribute (v : Value) : Except CallError Value := (Json.Tree.ofValue v).attribute

end EmbeddedMarkup.Safe
