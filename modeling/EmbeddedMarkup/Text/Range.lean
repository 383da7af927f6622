import EmbeddedMarkup.Text.Basic

/-!
# Ranges of code points

A class of characters is given by the ranges of its code points, in ascending order. The search
stops at the first range that lies above the character. A long list of ranges is written as a text
like `aa b5 c0-d6`, in hexadecimal notation.
-/

namespace EmbeddedMarkup.Text

/-- Whether `n` lies in one of the ranges, which are in ascending order. -/
def inRanges (n : Nat) : List (Nat × Nat) → Bool
  | [] => false
  | (lo, hi) :: rest => if n < lo then false else decide (n ≤ hi) || inRanges n rest

def isIn (ranges : List (Nat × Nat)) (c : Char) : Bool := inRanges c.toNat ranges

def hexValue (c : Char) : Nat := if c.isDigit then c.toNat - 48 else c.toNat - 87

def hexNumber (t : Text) : Nat := t.foldl (fun n c => 16 * n + hexValue c) 0

def readRange (t : Text) : Nat × Nat :=
  match splitOn '-' t with
  | [lo, hi] => (hexNumber lo, hexNumber hi)
  | _ => (hexNumber t, hexNumber t)

def readRanges (table : String) : List (Nat × Nat) :=
  (splitOn ' ' (table.toList.map fun c => if c = '\n' then ' ' else c)).map readRange

end EmbeddedMarkup.Text
