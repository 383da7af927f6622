import EmbeddedMarkup.Pattern.Reading

/-!
# Tests of names

Which names are meant is said by a pattern. Most often this is a list of names, divided by bars and
with a backslash before each dot; such a pattern is kept as the list.
-/

namespace EmbeddedMarkup

inductive NameTest where
  | oneOf (names : List Text)
  | pattern (p : Pattern)
  deriving DecidableEq

namespace NameTest

/-- The characters that have a meaning of their own in a pattern; a bar divides names. -/
def isSpecial (c : Char) : Bool := "\\^$*+?.()[]\x7b\x7d".toList.contains c

/-- The names in a text where they are divided by bars, with a backslash before each dot. -/
def names (t : Text) : List Text := (Text.splitOn '|' t).map (Text.replaceAll ['\\', '.'] ['.'])

def isList (t : Text) : Bool := !(Text.replaceAll ['\\', '.'] [] t).any isSpecial

def ofText (t : Text) : Except Pattern.Fault NameTest :=
  if isList t then .ok (.oneOf (names t)) else (Pattern.ofText t false).map .pattern

def holds (name : Text) : NameTest → Bool
  | oneOf names => names.contains name
  | pattern p => p.matchesAll name

def occursIn (t : Text) : NameTest → Bool
  | oneOf names => names.any (Text.includes · t)
  | pattern p => p.occursIn t

end NameTest

end EmbeddedMarkup
