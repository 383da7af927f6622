import EmbeddedMarkup.Text.Casing
import EmbeddedMarkup.Text.Recognizer

/-!
# Cursors

A cursor is a list with a place in it. It moves forward by whole matches, back by single items, and
can look at the items around its place. The place never lies beyond the end of the list, and this
is part of the type.

The operations that need text, such as reading up to a match, are stated for `Cursor Char`. They
only choose how far to move: what is read is always the piece between the old and the new place.
-/

namespace EmbeddedMarkup

/-- A list with a place in it. -/
structure Cursor (α : Type) where
  items : List α
  pos : Nat := 0
  pos_le : pos ≤ items.length := by simp

namespace Cursor

variable {α : Type}

def ofList (items : List α) : Cursor α := { items }

def rest (c : Cursor α) : List α := c.items.drop c.pos

def isEmpty (c : Cursor α) : Bool := c.items.isEmpty

def hasNext (c : Cursor α) : Bool := decide (c.pos < c.items.length)

def advance (c : Cursor α) (n : Nat) : Cursor α :=
  { items := c.items, pos := min (c.pos + n) c.items.length, pos_le := Nat.min_le_right _ _ }

def restart (c : Cursor α) : Cursor α := ofList c.items

def back (c : Cursor α) : Cursor α :=
  { items := c.items, pos := c.pos - 1, pos_le := Nat.le_trans (Nat.sub_le _ _) c.pos_le }

def next? (c : Cursor α) : Option (α × Cursor α) := c.rest.head?.map fun a => (a, c.advance 1)

def offset? (c : Cursor α) (i : Int) : Option Nat :=
  let j := i + c.pos
  if 0 ≤ j ∧ j < c.items.length then some j.toNat else none

def peek (c : Cursor α) (i : Int) : Option α := (c.offset? i).bind fun j => c.items[j]?

def push (c : Cursor α) (a : α) : Cursor α :=
  { items := c.items ++ [a], pos := c.pos, pos_le := by
      have := c.pos_le
      simp only [List.length_append, List.length_cons, List.length_nil]
      omega }

def toEnd (c : Cursor α) : Cursor α :=
  { items := c.items, pos := c.items.length, pos_le := Nat.le_refl _ }

def take (c : Cursor α) (n : Nat) : List α × Cursor α := (c.rest.take n, c.advance n)

def test (c : Cursor Char) (r : Recognizer) (i : Int) : Bool :=
  (c.offset? i).any fun j => (r (c.items.drop j)).isSome

/-- Whether a recognizer matches at the start of the single character `i` places away. -/
def testChar (c : Cursor Char) (r : Recognizer) (i : Int) : Bool :=
  (c.peek i).any fun a => (r [a]).isSome

def match? (c : Cursor Char) (r : Recognizer) : Option (Text × Cursor Char) :=
  (r.atText c.rest).map c.take

def readUntil (c : Cursor Char) (r : Recognizer) : Text × Cursor Char := c.take (r.reach c.rest)

def readPast (c : Cursor Char) (r : Recognizer) : Text × Cursor Char :=
  c.take (r.reachPast c.rest)

/-- Whether the text that ends one character before the place is `s` without regard to case; `s` is
in lower case. -/
def lookBack (c : Cursor Char) (s : Text) : Bool :=
  let stop := c.pos - 1
  decide (1 ≤ c.pos) && decide (s.length ≤ stop) &&
    Text.lower ((c.items.take stop).drop (stop - s.length)) == s

end Cursor

end EmbeddedMarkup
