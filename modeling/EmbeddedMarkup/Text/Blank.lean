import EmbeddedMarkup.Text.Range

/-!
# Blank characters

The blanks are the characters with the Unicode property White_Space together with the four
separators U+001C to U+001F. `strip` takes them from both ends of a text and `removeBlanks` takes
them all.
-/

namespace EmbeddedMarkup.Text

def blankRanges : List (Nat × Nat) :=
  [(0x9, 0xd), (0x1c, 0x20), (0x85, 0x85), (0xa0, 0xa0), (0x1680, 0x1680), (0x2000, 0x200a),
   (0x2028, 0x2029), (0x202f, 0x202f), (0x205f, 0x205f), (0x3000, 0x3000)]

def isBlank (c : Char) : Bool := isIn blankRanges c

def stripLeft (t : Text) : Text := t.dropWhile isBlank

def stripRight (t : Text) : Text := dropRightWhile isBlank t

def strip (t : Text) : Text := stripRight (stripLeft t)

def removeBlanks (t : Text) : Text := t.filter fun c => !isBlank c

theorem removeBlanks_append (s t : Text) :
    removeBlanks (s ++ t) = removeBlanks s ++ removeBlanks t := by
  simp [removeBlanks]

end EmbeddedMarkup.Text
