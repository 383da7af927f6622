import EmbeddedMarkup.Text.CharacterName.Table
import EmbeddedMarkup.Text.Range

/-!
# Names of characters

Characters can be given by their names, of which the most usual ones are known. Names are compared
without regard to case.
-/

namespace EmbeddedMarkup.Text

namespace CharacterName

def readEntry (line : Text) : Text × Nat :=
  let isHex (c : Char) : Bool := c != ' '
  ((line.dropWhile isHex).drop 1, hexNumber (line.takeWhile isHex))

/-- The names in the table, which is read when it is first needed. -/
def names : Thunk (List (Text × Nat)) :=
  .mk fun _ => (splitOn '\n' table.toList).map readEntry

end CharacterName

def characterNamed? (name : Text) : Option Char :=
  (CharacterName.names.get.lookup (name.map Char.toUpper)).map Char.ofNat

end EmbeddedMarkup.Text
