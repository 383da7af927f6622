import EmbeddedMarkup.Text.Basic

/-!
# Recognizers

A recognizer looks at the start of a text and says how many characters it matches there, if it
matches at all. Only the length is returned: the matched text is a `take` and the rest a `drop`
of the same number, so nothing can be lost or made up when a text is cut by a recognizer.

`search` finds the first place where a recognizer matches; `reach` and `reachPast` are the number of
characters up to, and up to and including, that match. Where there is no match they run to the
end of the text.
-/

namespace EmbeddedMarkup

abbrev Recognizer := Text → Option Nat

namespace Recognizer

def literal (s : Text) : Recognizer := fun t => if s.isPrefixOf t then some s.length else none

def one (p : Char → Bool) : Recognizer
  | [] => none
  | c :: _ => if p c then some 1 else none

/-- Matches the longest non-empty run of characters of a class. -/
def run (p : Char → Bool) : Recognizer := fun t =>
  match (t.takeWhile p).length with
  | 0 => none
  | n + 1 => some (n + 1)

def anyRun (p : Char → Bool) : Recognizer := fun t => some (t.takeWhile p).length

def orElse (r s : Recognizer) : Recognizer := fun t => (r t).or (s t)

def andThen (r s : Recognizer) : Recognizer := fun t =>
  (r t).bind fun n => (s (t.drop n)).map (n + ·)

def optional (r : Recognizer) : Recognizer := fun t => (r t).or (some 0)

def ahead (r : Recognizer) : Recognizer := fun t => (r t).map fun _ => 0

def sequence (rs : List Recognizer) : Recognizer :=
  rs.foldr andThen fun _ => some 0

def firstOf (rs : List Recognizer) : Recognizer :=
  rs.foldr orElse fun _ => none

/-- Where the first match starts and how long it is. The end of the text is tried as well, for the
recognizers that match nothing at all. -/
def search (r : Recognizer) : Text → Option (Nat × Nat)
  | [] => (r []).map fun n => (0, n)
  | c :: t =>
      match r (c :: t) with
      | some n => some (0, n)
      | none => (search r t).map fun m => (m.1 + 1, m.2)

def reach (r : Recognizer) (t : Text) : Nat :=
  match search r t with
  | some m => m.1
  | none => t.length

def reachPast (r : Recognizer) (t : Text) : Nat :=
  match search r t with
  | some m => m.1 + m.2
  | none => t.length

/-- A match at a place where text is left: at the end of the text nothing matches, not even a
recognizer that is content with nothing. -/
def atText (r : Recognizer) (t : Text) : Option Nat := if t.isEmpty then none else r t

theorem one_cons (p : Char → Bool) (c : Char) (t : Text) :
    one p (c :: t) = if p c then some 1 else none := rfl

theorem reach_le_length (r : Recognizer) (t : Text) : reach r t ≤ t.length := by
  unfold reach
  induction t with
  | nil => cases h : r [] <;> simp [search, h]
  | cons c t ih =>
      cases h : r (c :: t) with
      | some n => simp [search, h]
      | none =>
          cases hs : search r t with
          | none => simp [search, h, hs]
          | some m =>
              simp only [hs] at ih
              simp only [search, h, hs, Option.map_some, List.length_cons]
              omega

end Recognizer

end EmbeddedMarkup
