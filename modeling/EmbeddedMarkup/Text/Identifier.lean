import EmbeddedMarkup.Text.CharacterClass

/-!
# Identifiers and words

An identifier starts with a character of one class and goes on with characters of a second, larger
class (XID_Start with the underscore, and XID_Continue). The reserved words have the form of an
identifier without being usable as one.

A word character is a letter, a digit or other numeral of any script, or the underscore.
-/

namespace EmbeddedMarkup.Text

def isIdentifierStart (c : Char) : Bool := CharacterClass.identifierStart.has c

/-- Whether a character can stand in an identifier after its first character. -/
def isIdentifierRest (c : Char) : Bool := isIdentifierStart c || CharacterClass.identifierMark.has c

def isIdentifier : Text → Bool
  | [] => false
  | c :: t => isIdentifierStart c && t.all isIdentifierRest

def reservedWords : List Text :=
  lits
    ["False", "None", "True", "and", "as", "assert", "async", "await", "break", "class", "continue",
     "def", "del", "elif", "else", "except", "finally", "for", "from", "global", "if", "import",
     "in", "is", "lambda", "nonlocal", "not", "or", "pass", "raise", "return", "try", "while",
     "with", "yield"]

def isReserved (t : Text) : Bool := reservedWords.contains t

/-- The code points that can start an identifier but are no word characters. -/
def signRanges : List (Nat × Nat) := [(0x1885, 0x1886), (0x2118, 0x2118), (0x212e, 0x212e)]

def isWord (c : Char) : Bool :=
  CharacterClass.numeral.has c || (isIdentifierStart c && !isIn signRanges c)

end EmbeddedMarkup.Text
