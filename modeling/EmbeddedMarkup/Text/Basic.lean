/-!
# Text

A text is the list of its characters, so that every function on it is ordinary recursion on a
list and every length is a number of characters. Strings appear only where text enters or leaves
the library.

Besides the abbreviation, this module has the few operations on text that core's lists lack:
searching for a piece of text, replacing all its occurrences, and cutting at a separator.
-/

namespace EmbeddedMarkup

def itemAt? {α : Type} (items : List α) (i : Int) : Option α :=
  if 0 ≤ i then items[i.toNat]?
  else if 0 ≤ i + items.length then items[(i + items.length).toNat]?
  else none

abbrev Text := List Char

namespace Text

def dropLiteral? : (p t : Text) → Option Text
  | [], t => some t
  | _ :: _, [] => none
  | c :: p, d :: t => if c = d then dropLiteral? p t else none

theorem dropLiteral?_eq_some_iff {p t r : Text} :
    dropLiteral? p t = some r ↔ t = p ++ r := by
  induction p generalizing t with
  | nil => simp [dropLiteral?, eq_comm]
  | cons c p ih =>
      cases t with
      | nil => simp [dropLiteral?]
      | cons d t =>
          by_cases h : c = d
          · subst h
            simp [dropLiteral?, ih]
          · have hne : d ≠ c := fun e => h e.symm
            simp [dropLiteral?, h, hne]

def indexOf? (needle : Text) : Text → Option Nat
  | [] => if needle.isEmpty then some 0 else none
  | c :: t => if needle.isPrefixOf (c :: t) then some 0 else (indexOf? needle t).map (· + 1)

def includes (needle t : Text) : Bool := (indexOf? needle t).isSome

/-- The text after `skip` characters, with each occurrence of `needle` replaced, from left to right
and without overlaps. -/
def replaceFrom (needle replacement : Text) : Nat → Text → Text
  | _, [] => []
  | skip + 1, _ :: t => replaceFrom needle replacement skip t
  | 0, c :: t =>
      if needle.isPrefixOf (c :: t) then
        replacement ++ replaceFrom needle replacement (needle.length - 1) t
      else
        c :: replaceFrom needle replacement 0 t

def replaceAll (needle replacement t : Text) : Text := replaceFrom needle replacement 0 t

/-- The pieces between the characters that satisfy `sep`; there is always at least one piece. -/
def splitWhen (sep : Char → Bool) : Text → List Text
  | [] => [[]]
  | c :: t =>
      if sep c then [] :: splitWhen sep t
      else
        match splitWhen sep t with
        | [] => [[c]]
        | piece :: pieces => (c :: piece) :: pieces

def splitOn (c : Char) (t : Text) : List Text := splitWhen (· == c) t

/-- The pieces between *runs* of characters that satisfy `sep`: a run separates only once. -/
def splitRuns (sep : Char → Bool) : Text → List Text
  | [] => [[]]
  | [c] => if sep c then [[], []] else [[c]]
  | c :: d :: t =>
      if sep c then
        if sep d then splitRuns sep (d :: t) else [] :: splitRuns sep (d :: t)
      else
        match splitRuns sep (d :: t) with
        | [] => [[c]]
        | piece :: pieces => (c :: piece) :: pieces

def join (sep : Text) (pieces : List Text) : Text := sep.intercalate pieces

def times (n : Nat) (t : Text) : Text := (List.replicate n t).flatten

def timesInt (n : Int) (t : Text) : Text := times n.toNat t

def endsWith (suffix t : Text) : Bool := suffix.isSuffixOf t

def dropRightWhile (p : Char → Bool) (t : Text) : Text := (t.reverse.dropWhile p).reverse

def lits (ss : List String) : List Text := ss.map String.toList

def le : Text → Text → Bool
  | [], _ => true
  | _ :: _, [] => false
  | c :: s, d :: t => if c = d then le s t else decide (c.toNat < d.toNat)

end Text

end EmbeddedMarkup
