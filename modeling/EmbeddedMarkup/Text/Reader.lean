import EmbeddedMarkup.Text.Recognizer

/-!
# Readers

A reader says how much of a text belongs to the next piece: an opening that must be there, a
match that goes on from it, and a stop up to which (or through which) the piece runs. All three
parts are optional. Like a recognizer it only counts characters; a piece that is not there has
length zero.
-/

namespace EmbeddedMarkup

def Text.patternMarks : List Char := "-/\\^$*+?.()|[]\x7b\x7d".toList

/-- The pattern that matches exactly the given text: a backslash goes before every character with a
meaning of its own. -/
def Text.escapePattern (t : Text) : Text :=
  t.flatMap fun c => if patternMarks.contains c then ['\\', c] else [c]

structure Reader where
  opening : Option Recognizer := none
  body : Option Recognizer := none
  stop : Option Recognizer := none
  inclusive : Bool := false

namespace Reader

def upTo (p : Reader) (r : Recognizer) : Reader := { p with stop := some r, inclusive := false }

def through (p : Reader) (r : Recognizer) : Reader := { p with stop := some r, inclusive := true }

def startingWith (p : Reader) (r : Recognizer) : Reader := { p with opening := some r }

def matching (p : Reader) (r : Recognizer) : Reader := { p with body := some r }

def between (first last : Text) : Reader :=
  (startingWith {} (.literal first)).through (.literal last)

def stopLength (stop : Option Recognizer) (inclusive : Bool) (t : Text) : Nat :=
  match stop with
  | none => 0
  | some r => if t.isEmpty then 0 else if inclusive then r.reachPast t else r.reach t

/-- The length of a match of `start`, and from it on to the stop. Without a `start` the way to the
stop is counted at once; with a `start` that does not match there is nothing. -/
def partLength (start stop : Option Recognizer) (inclusive : Bool) (t : Text) : Nat :=
  match start with
  | none => stopLength stop inclusive t
  | some r =>
      match r.atText t with
      | none => 0
      | some n => n + stopLength stop inclusive (t.drop n)

def length (p : Reader) (t : Text) : Nat :=
  let n := partLength p.opening none false t
  if p.opening.isNone || n != 0 then n + partLength p.body p.stop p.inclusive (t.drop n) else n

def read (p : Reader) (t : Text) : Text := t.take (p.length t)

end Reader

end EmbeddedMarkup
