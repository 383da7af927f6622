import EmbeddedMarkup.Text.CharacterClass.Table
import EmbeddedMarkup.Text.Range

/-!
# Classes of characters

Which characters can stand in an identifier, which are printable, which have a case and which are
numerals. The ranges of the first 128 characters are at hand; those of the others are read from the
tables when they are first needed.
-/

namespace EmbeddedMarkup.Text

inductive CharacterClass where
  /-- What can start an identifier (XID_Start with the underscore). -/
  | identifierStart
  /-- What can stand only after the first character of an identifier (the rest of XID_Continue). -/
  | identifierMark
  /-- Control and format characters, unassigned and private code points, and all separators but the
  space. -/
  | unprintable
  | cased
  /-- What is passed over when the letters around a sigma are looked at. -/
  | caseIgnorable
  /-- Numerals and a few letters: the word characters that cannot start an identifier. -/
  | numeral
  deriving DecidableEq

namespace CharacterClass

def asciiRanges : CharacterClass → List (Nat × Nat)
  | identifierStart => [(0x41, 0x5a), (0x5f, 0x5f), (0x61, 0x7a)]
  | identifierMark | numeral => [(0x30, 0x39)]
  | unprintable => [(0x0, 0x1f), (0x7f, 0x7f)]
  | cased => [(0x41, 0x5a), (0x61, 0x7a)]
  | caseIgnorable => [(0x27, 0x27), (0x2e, 0x2e), (0x3a, 0x3a), (0x5e, 0x5e), (0x60, 0x60)]

def tables : List (CharacterClass × String) :=
  [(identifierStart, identifierStartTable), (identifierMark, identifierMarkTable),
   (unprintable, unprintableTable), (cased, casedTable), (caseIgnorable, caseIgnorableTable),
   (numeral, numeralTable)]

def known : Thunk (List (CharacterClass × List (Nat × Nat))) :=
  .mk fun _ => tables.map fun (k, table) => (k, readRanges table)

def has (k : CharacterClass) (c : Char) : Bool :=
  if c.toNat < 0x80 then isIn k.asciiRanges c else isIn ((known.get.lookup k).getD []) c

end CharacterClass

/-- Whether a character can be shown as it is; a quoted text writes the others as escapes. -/
def isPrintable (c : Char) : Bool := !CharacterClass.unprintable.has c

end EmbeddedMarkup.Text
