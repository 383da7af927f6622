import EmbeddedMarkup.Source.Program.Fault

/-!
# Numbers

How far a number reaches. Digits may have single underscores between them, a base other than ten is
told by a letter after a zero, and a number of base ten may have a fraction, an exponent and a unit.
A name may not follow a number directly, apart from a few words.
-/

namespace EmbeddedMarkup.Source.Program

/-- Whether a character can start a name: of the others than ASCII it is decided later. -/
def isNameStart (c : Char) : Bool := c.isAlpha || c == '_' || 128 ≤ c.toNat

def isNameRest (c : Char) : Bool := isNameStart c || c.isDigit

def wordsAfterNumber : List Text := Text.lits ["and", "else", "for", "not", "or"]

def startsAfterNumber : List Text := Text.lits ["if", "in", "is"]

/-- Checks that what follows a number may follow it; of characters beyond ASCII it is decided
later. -/
def endNumber (base : String) (t : Text) : Except Cause Unit :=
  let isName := (t.head?.map fun c => isNameRest c && decide (c.toNat < 128)).getD false
  if !isName || startsAfterNumber.any (List.isPrefixOf · t) ||
      wordsAfterNumber.contains (t.takeWhile isNameRest) then .ok ()
  else .error (.invalidNumber base.toList)

/-- The length of digits with single underscores between them; `due` tells whether a digit must come
next. -/
def digitsLength (base : String) (isDigit : Char → Bool) : (due : Bool) → Text → Except Cause Nat
  | true, [] => .error (.invalidNumber base.toList)
  | false, [] => .ok 0
  | due, c :: t =>
      if isDigit c then (digitsLength base isDigit false t).map (· + 1)
      else if due then
        .error (if c.isDigit then .invalidDigit c base.toList else .invalidNumber base.toList)
      else if c = '_' then (digitsLength base isDigit true t).map (· + 1)
      else .ok 0

def otherBase (base : String) (isDigit : Char → Bool) (t : Text) : Except Cause Nat := do
  let skip := if t.head? = some '_' then 1 else 0
  let n ← digitsLength base isDigit true (t.drop skip)
  let rest := t.drop (skip + n)
  match rest with
  | c :: _ => if c.isDigit then throw (.invalidDigit c base.toList)
  | [] => pure ()
  endNumber base rest
  return 2 + skip + n

def decimalDigits (t : Text) : Except Cause Nat := digitsLength "decimal" Char.isDigit false t

def unitLength (t : Text) : Except Cause Nat :=
  match t with
  | [] => .ok 0
  | c :: r =>
      if c = 'j' ∨ c = 'J' then (endNumber "imaginary" r).map fun _ => 1
      else (endNumber "decimal" t).map fun _ => 0

def digitsAndUnit (t : Text) : Except Cause Nat := do
  let n ← decimalDigits t
  return n + (← unitLength (t.drop n))

def startsWithDigit (t : Text) : Bool := (t.head?.map Char.isDigit).getD false

/-- The length of an exponent and of the unit after it, where both may be missing. -/
def exponentLength (t : Text) : Except Cause Nat :=
  match t with
  | [] => .ok 0
  | c :: r =>
      if c = 'e' ∨ c = 'E' then
        match r with
        | s :: u =>
            if s = '+' ∨ s = '-' then
              if startsWithDigit u then (digitsAndUnit u).map (· + 2)
              else .error (.invalidNumber "decimal".toList)
            else if s.isDigit then (digitsAndUnit r).map (· + 1)
            else (endNumber "decimal" t).map fun _ => 0
        | [] => (endNumber "decimal" t).map fun _ => 0
      else unitLength t

def fractionLength (t : Text) : Except Cause Nat := do
  let n ← if startsWithDigit t then decimalDigits t else pure 0
  return n + (← exponentLength (t.drop n))

def afterWhole (t : Text) : Except Cause Nat :=
  match t with
  | '.' :: r => (fractionLength r).map (· + 1)
  | t => exponentLength t

/-- The length of zeros after the first one, with underscores between them. An underscore before
another digit belongs to them. -/
def zerosLength : Text → Except Cause Nat
  | '0' :: t => (zerosLength t).map (· + 1)
  | '_' :: d :: t =>
      if d = '0' then (zerosLength t).map (· + 2)
      else if d.isDigit then .ok 1
      else .error (.invalidNumber "decimal".toList)
  | ['_'] => .error (.invalidNumber "decimal".toList)
  | _ => .ok 0

def isInexact (t : Text) : Bool := (t.head?.map fun c => ".eEjJ".toList.contains c).getD false

def afterZero (t : Text) : Except Cause Nat := do
  let n ← zerosLength t
  if startsWithDigit (t.drop n) then
    let m ← decimalDigits (t.drop n)
    let rest := t.drop (n + m)
    if isInexact rest then return n + m + (← afterWhole rest) else throw .leadingZeros
  else return n + (← afterWhole (t.drop n))

def isHexDigit (c : Char) : Bool := c.isDigit || ('a' ≤ c.toLower && c.toLower ≤ 'f')

def numberLength (t : Text) : Except Cause Nat :=
  match t with
  | '.' :: r => (fractionLength r).map (· + 1)
  | '0' :: r =>
      match r with
      | b :: u =>
          if b = 'x' ∨ b = 'X' then otherBase "hexadecimal" isHexDigit u
          else if b = 'o' ∨ b = 'O' then otherBase "octal" (fun c => '0' ≤ c && c ≤ '7') u
          else if b = 'b' ∨ b = 'B' then otherBase "binary" (fun c => c == '0' || c == '1') u
          else (afterZero r).map (· + 1)
      | [] => .ok 1
  | t => do
      let n ← decimalDigits t
      return n + (← afterWhole (t.drop n))

def digitsFault? (t : Text) : Option Cause :=
  let digits := t.filter Char.isDigit
  if t.head? ≠ some '0' ∧ t.all (fun c => c.isDigit || c == '_') ∧
      Text.maxNumeralDigits < digits.length then
    some (.tooManyDigits digits.length)
  else none

end EmbeddedMarkup.Source.Program
