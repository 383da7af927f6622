import EmbeddedMarkup.Text.NormalForm.Table
import EmbeddedMarkup.Text.Range

/-!
# The normal form of names

Two spellings of a name are the same name if they have the same normal form: every character is
decomposed into what it stands for, marks are brought into the order of their combining classes, and
what can be composed is composed again. The tables cover the characters that can stand in a name.
-/

namespace EmbeddedMarkup.Text

namespace NormalForm

/-- An entry of a table: the first and the last character it is about, and what it says of them. -/
structure Entry where
  first : Nat
  last : Nat
  /-- What is said of them. -/
  values : List Nat

/-- A table that is read character by character. -/
structure Scan where
  /-- The entries so far, the latest first. -/
  entries : List Entry := []
  first : Nat := 0
  last : Nat := 0
  /-- The numbers of the entry that is read, the latest first. -/
  numbers : List Nat := []
  /-- The number that is read. -/
  current : Nat := 0
  /-- Whether the entry is about a range. -/
  ranged : Bool := false

def Scan.step (s : Scan) (c : Char) : Scan :=
  if c = ' ' then { s with numbers := s.current :: s.numbers, current := 0 }
  else if c = '-' then { s with first := s.current, current := 0, ranged := true }
  else if c = '=' then
    { s with first := if s.ranged then s.first else s.current, last := s.current, current := 0 }
  else if c = ';' then
    { entries := ⟨s.first, s.last, (s.current :: s.numbers).reverse⟩ :: s.entries
      first := s.last + 1, last := s.last + 1 }
  else { s with current := 16 * s.current + hexValue c }

def readEntries (table : String) : List Entry :=
  ((table.toList.filter (· != '\n') ++ [';']).foldl Scan.step {}).entries.reverse

structure Tables where
  /-- What the characters are decomposed into; a range of characters goes to the characters from the
  given one on. -/
  decompositions : List Entry
  classes : List Entry
  composed : List (Nat × Nat)

def known : Thunk Tables :=
  .mk fun _ => ⟨readEntries decompositionTable, readEntries classTable, readRanges composedTable⟩

def entry? (n : Nat) (entries : List Entry) : Option Entry :=
  entries.find? fun e => decide (e.first ≤ n ∧ n ≤ e.last)

def syllableBase : Nat := 0xac00

/-- The numbers of the parts of a syllable of Hangul: consonant, vowel and final consonant, where
the number zero stands for no final consonant. -/
def syllableParts? (n : Nat) : Option (Nat × Nat × Nat) :=
  if syllableBase ≤ n ∧ n < syllableBase + 11172 then
    let i := n - syllableBase
    some (i / 588, i % 588 / 28, i % 28)
  else none

def decompose (c : Char) : Text :=
  let n := c.toNat
  if n < 0x80 then [c]
  else
    match syllableParts? n with
    | some (l, v, t) =>
        Char.ofNat (0x1100 + l) :: Char.ofNat (0x1161 + v) ::
          if t = 0 then [] else [Char.ofNat (0x11a7 + t)]
    | none =>
        match entry? n known.get.decompositions with
        | none => [c]
        | some e =>
            match e.values with
            | [v] => [Char.ofNat (v + (n - e.first))]
            | vs => vs.map Char.ofNat

/-- The combining class of a character; zero for one that does not combine. -/
def combiningClass (c : Char) : Nat :=
  if c.toNat < 0x80 then 0
  else
    match entry? c.toNat known.get.classes with
    | some ⟨_, _, [k]⟩ => k
    | _ => 0

/-- Puts a mark behind those of its own or a smaller class. The marks are given the last one
first. -/
def insertMark (c : Char) : Text → Text
  | [] => [c]
  | d :: marks =>
      if combiningClass c < combiningClass d then d :: insertMark c marks else c :: d :: marks

/-- Brings the marks after each character into the order of their classes; `marks` are those that
were met since the last character that does not combine, the last one first. -/
def orderMarks (marks : Text) : Text → Text
  | [] => marks.reverse
  | c :: t =>
      if combiningClass c = 0 then marks.reverse ++ c :: orderMarks [] t
      else orderMarks (insertMark c marks) t

/-- The syllable of Hangul that two characters are composed into. -/
def composeSyllable? (a b : Nat) : Option Nat :=
  if 0x1100 ≤ a ∧ a < 0x1113 ∧ 0x1161 ≤ b ∧ b < 0x1176 then
    some (syllableBase + (a - 0x1100) * 588 + (b - 0x1161) * 28)
  else
    match syllableParts? a with
    | some (_, _, 0) => if 0x11a7 < b ∧ b < 0x11c3 then some (a + (b - 0x11a7)) else none
    | _ => none

def composePair? (a b : Char) : Option Char :=
  match composeSyllable? a.toNat b.toNat with
  | some n => some (Char.ofNat n)
  | none =>
      let parts := (decompose a ++ [b]).map Char.toNat
      let composes (e : Entry) : Bool := e.values == parts && inRanges e.first known.get.composed
      (known.get.decompositions.find? composes).map fun e => Char.ofNat e.first

/-- Composes the character `base` with the marks that follow it. `marks` are those that stay, the
last one first; a mark behind one of its own or a greater class is not composed. -/
def composeFrom (base : Char) (marks : Text) : Text → Text
  | [] => base :: marks.reverse
  | c :: t =>
      let k := combiningClass c
      let isFree := marks.head?.all fun m => decide (combiningClass m < k)
      match if isFree then composePair? base c else none with
      | some composed => composeFrom composed marks t
      | none =>
          if k = 0 then base :: marks.reverse ++ composeFrom c [] t
          else composeFrom base (c :: marks) t

def compose : Text → Text
  | [] => []
  | c :: t => if combiningClass c = 0 then composeFrom c [] t else c :: compose t

end NormalForm

def normalName (t : Text) : Text :=
  if t.all fun c => decide (c.toNat < 0x80) then t
  else NormalForm.compose (NormalForm.orderMarks [] (t.flatMap NormalForm.decompose))

end EmbeddedMarkup.Text
