import EmbeddedMarkup.Source.Program.Value
import EmbeddedMarkup.Text.CharacterName

/-!
# Text literals

What a text literal stands for: its escapes are replaced unless it is raw. Places in the fault of an
escape are counted after every character beyond ASCII was written as an escape of ten characters.
-/

namespace EmbeddedMarkup.Source.Program

/-- The letters before the quotes, in lower case, and what lies between the quotes. -/
structure Quotation where
  letters : Text
  body : Text
  quotes : Nat

namespace Quotation

def ofToken (t : Text) : Quotation :=
  let letters := t.takeWhile Char.isAlpha
  let rest := t.drop letters.length
  let n :=
    match rest with
    | a :: b :: c :: _ => if a = b ∧ b = c ∧ 6 ≤ rest.length then 3 else 1
    | _ => 1
  { letters := letters.map Char.toLower, body := (rest.take (rest.length - n)).drop n, quotes := n }

def isBytes (q : Quotation) : Bool := q.letters.contains 'b'

def isTemplate (q : Quotation) : Bool := q.letters.contains 'f'

def isRaw (q : Quotation) : Bool := q.letters.contains 'r'

end Quotation

def hexDigit? (c : Char) : Option Nat :=
  if c.isDigit then some (c.toNat - '0'.toNat)
  else if 'a' ≤ c ∧ c ≤ 'f' then some (c.toNat - 'a'.toNat + 10)
  else if 'A' ≤ c ∧ c ≤ 'F' then some (c.toNat - 'A'.toNat + 10)
  else none

def hexNumber (t : Text) : Nat := t.foldl (fun n c => 16 * n + (hexDigit? c).getD 0) 0

/-- The character with a code point. Half of a pair has no character, and stays an escape. -/
def charText (n : Nat) : Text :=
  if h : n.isValidChar then [Char.ofNatAux n h] else Text.escapeCode n

/-- The characters that stand for themselves or for a control character after a backslash. -/
def simpleEscapes : List (Char × Text) :=
  [('\n', []), ('\\', ['\\']), ('\'', ['\'']), ('"', ['"']), ('a', ['\x07']), ('b', ['\x08']),
   ('f', ['\x0c']), ('n', ['\n']), ('r', ['\r']), ('t', ['\t']), ('v', ['\x0b'])]

def octalDigits (t : Text) : Text := (t.takeWhile fun d => '0' ≤ d && d ≤ '7').take 3

def octalNumber (t : Text) : Nat := t.foldl (fun n d => 8 * n + (d.toNat - '0'.toNat)) 0

/-- An escape of so many hexadecimal digits, which follow the letter: the number of its characters
and what it stands for, or how many characters were read before it was found to be wrong. -/
def hexEscape (letter : Char) (n : Nat) (t : Text) : Except (Nat × EscapeFault) (Nat × Text) :=
  let digits := (t.take n).takeWhile fun c => (hexDigit? c).isSome
  if digits.length < n then .error (digits.length + 1, .tooShort letter n)
  else if 0x10ffff < hexNumber digits then .error (n + 1, .noCharacter)
  else .ok (n + 1, charText (hexNumber digits))

/-- An escape of a character by its name, which follows the letter in braces. -/
def nameEscape (t : Text) : Except (Nat × EscapeFault) (Nat × Text) :=
  match t with
  | '{' :: r =>
      let name := r.takeWhile (· != '}')
      if name.length = r.length then .error (r.length + 2, .noName)
      else if name.isEmpty then .error (2, .noName)
      else
        match Text.characterNamed? name with
        | some c => .ok (name.length + 3, [c])
        | none => .error (name.length + 3, .unknownName)
  | _ => .error (1, .noName)

/-- The escape that follows a backslash: the number of its characters, and what it stands for. -/
def escapeAt (t : Text) : Except (Nat × EscapeFault) (Nat × Text) :=
  match t with
  | [] => .ok (0, ['\\'])
  | c :: r =>
      match simpleEscapes.lookup c with
      | some u => .ok (1, u)
      | none =>
          let octal := octalDigits t
          if octal ≠ [] then .ok (octal.length, charText (octalNumber octal))
          else if c = 'x' then hexEscape c 2 r
          else if c = 'u' then hexEscape c 4 r
          else if c = 'U' then hexEscape c 8 r
          else if c = 'N' then nameEscape r
          else .ok (0, ['\\'])

/-- The text with its escapes replaced, where `skip` characters belong to an escape, and `position`
is the place of the first character. -/
def decodeFrom : (skip position : Nat) → Text → Except Cause Text
  | _, _, [] => .ok []
  | skip + 1, position, _ :: t => decodeFrom skip (position + 1) t
  | 0, position, c :: t =>
      if c = '\\' then
        match escapeAt t with
        | .error (n, why) => .error (.badEscape position (position + n) why)
        | .ok (n, u) => do return u ++ (← decodeFrom n (position + 1) t)
      else do return c :: (← decodeFrom 0 (position + 1) t)

/-- The text with an escape for every character beyond ASCII, and for a backslash before such a
character or at the end. The character after another backslash is left alone. -/
def widen : (escaped : Bool) → Text → Text
  | _, [] => []
  | escaped, c :: t =>
      if 128 ≤ c.toNat then '\\' :: 'U' :: Text.hexDigits 8 c.toNat ++ widen false t
      else if c = '\\' && !escaped then
        let isAlone := (t.head?.map fun d => decide (128 ≤ d.toNat)).getD true
        if isAlone then "\\u005c".toList ++ widen false t else c :: widen true t
      else c :: widen false t

def decode (t : Text) : Except Cause Text := decodeFrom 0 0 (widen false t)

/-- The escape that follows a backslash among bytes, which is at the given place. -/
def byteEscapeAt (position : Nat) (t : Text) : Except Cause (Nat × Text) :=
  match t with
  | [] => .ok (0, ['\\'])
  | c :: r =>
      match simpleEscapes.lookup c with
      | some u => .ok (1, u)
      | none =>
          let octal := octalDigits t
          if octal ≠ [] then .ok (octal.length, charText (octalNumber octal % 256))
          else if c = 'x' then
            let digits := (r.take 2).takeWhile fun c => (hexDigit? c).isSome
            if digits.length < 2 then .error (.badByteEscape position)
            else .ok (3, charText (hexNumber digits))
          else .ok (0, ['\\'])

def decodeBytesFrom : (skip position : Nat) → Text → Except Cause Text
  | _, _, [] => .ok []
  | skip + 1, position, _ :: t => decodeBytesFrom skip (position + 1) t
  | 0, position, c :: t =>
      if c = '\\' then do
        let (n, u) ← byteEscapeAt position t
        return u ++ (← decodeBytesFrom n (position + 1) t)
      else do return c :: (← decodeBytesFrom 0 (position + 1) t)

def Quotation.value (q : Quotation) : Except Cause Text :=
  if q.isRaw then .ok q.body
  else if q.isBytes then decodeBytesFrom 0 0 q.body
  else decode q.body

end EmbeddedMarkup.Source.Program
