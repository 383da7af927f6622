import EmbeddedMarkup.Text.Blank

/-!
# Decimal digits and whole numbers

A decimal digit of any script has a value from 0 to 9. `readInt?` reads a whole number: blanks
around it, a sign, and digits in which single underscores may separate groups.
-/

namespace EmbeddedMarkup.Text

/-- The code points of the zeros; the digits one to nine follow each of them. -/
def zeros : List Nat :=
  [0x30, 0x660, 0x6f0, 0x7c0, 0x966, 0x9e6, 0xa66, 0xae6, 0xb66, 0xbe6, 0xc66, 0xce6, 0xd66,
   0xde6, 0xe50, 0xed0, 0xf20, 0x1040, 0x1090, 0x17e0, 0x1810, 0x1946, 0x19d0, 0x1a80, 0x1a90,
   0x1b50, 0x1bb0, 0x1c40, 0x1c50, 0xa620, 0xa8d0, 0xa900, 0xa9d0, 0xa9f0, 0xaa50, 0xabf0, 0xff10,
   0x104a0, 0x10d30, 0x11066, 0x110f0, 0x11136, 0x111d0, 0x112f0, 0x11450, 0x114d0, 0x11650,
   0x116c0, 0x11730, 0x118e0, 0x11950, 0x11c50, 0x11d50, 0x11da0, 0x16a60, 0x16ac0, 0x16b50,
   0x1d7ce, 0x1d7d8, 0x1d7e2, 0x1d7ec, 0x1d7f6, 0x1e140, 0x1e2f0, 0x1e950, 0x1fbf0]

def digitValue? (c : Char) : Option Nat :=
  (zeros.find? fun z => decide (z ≤ c.toNat ∧ c.toNat < z + 10)).map fun z => c.toNat - z

/-- The digits of a numeral; an underscore may stand only between two digits. -/
def numeralDigits? : Text → Option (List Nat)
  | [] => none
  | [c] => (digitValue? c).map fun d => [d]
  | c :: '_' :: t => (digitValue? c).bind fun d => (numeralDigits? t).map (d :: ·)
  | c :: t => (digitValue? c).bind fun d => (numeralDigits? t).map (d :: ·)

def ofDigits (ds : List Nat) : Nat := ds.foldl (fun n d => 10 * n + d) 0

/-- A numeral of more digits is neither read nor written. -/
def maxNumeralDigits : Nat := 4300

def readNat? (t : Text) : Option Nat :=
  (numeralDigits? t).bind fun ds =>
    if ds.length ≤ maxNumeralDigits then some (ofDigits ds) else none

def readInt? (t : Text) : Option Int :=
  match strip t with
  | '-' :: r => (readNat? r).map fun n => -(n : Int)
  | '+' :: r => (readNat? r).map fun n => (n : Int)
  | r => (readNat? r).map fun n => (n : Int)

def ofNat (n : Nat) : Text := Nat.toDigits 10 n

def ofInt (n : Int) : Text :=
  if n < 0 then '-' :: ofNat n.natAbs else ofNat n.natAbs

/-- Whether the numeral of a whole number is short enough to be written. -/
def hasNumeral (n : Int) : Bool := (ofNat n.natAbs).length ≤ maxNumeralDigits

end EmbeddedMarkup.Text
