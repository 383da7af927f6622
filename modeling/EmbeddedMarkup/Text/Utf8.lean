import EmbeddedMarkup.Text.Basic

/-!
# UTF-8

Text as bytes. `decode?` accepts exactly the well-formed sequences: no bytes that cannot start a
character, no character written longer than need be, no half of a pair, and nothing above the last
code point.
-/

namespace EmbeddedMarkup.Text

namespace Utf8

def encodeChar (c : Char) : List UInt8 :=
  let n := c.toNat
  if n < 0x80 then [n.toUInt8]
  else if n < 0x800 then [(0xc0 + n / 0x40).toUInt8, (0x80 + n % 0x40).toUInt8]
  else if n < 0x10000 then
    [(0xe0 + n / 0x1000).toUInt8, (0x80 + n / 0x40 % 0x40).toUInt8, (0x80 + n % 0x40).toUInt8]
  else
    [(0xf0 + n / 0x40000).toUInt8, (0x80 + n / 0x1000 % 0x40).toUInt8,
     (0x80 + n / 0x40 % 0x40).toUInt8, (0x80 + n % 0x40).toUInt8]

def encode (t : Text) : List UInt8 := t.flatMap encodeChar

def tail? (b : UInt8) : Option Nat := if 0x80 ≤ b ∧ b < 0xc0 then some (b.toNat - 0x80) else none

def charFrom? (low n : Nat) : Option Char :=
  if h : n.isValidChar then if low ≤ n then some (Char.ofNatAux n h) else none else none

def decode? : List UInt8 → Option Text
  | [] => some []
  | a :: t =>
      if a < 0x80 then do
        let c ← charFrom? 0 a.toNat
        return c :: (← decode? t)
      else if a < 0xe0 then
        match t with
        | b :: t => do
            let x ← tail? b
            let c ← charFrom? 0x80 ((a.toNat - 0xc0) * 0x40 + x)
            return c :: (← decode? t)
        | _ => none
      else if a < 0xf0 then
        match t with
        | b :: c :: t => do
            let x ← tail? b
            let y ← tail? c
            let d ← charFrom? 0x800 ((a.toNat - 0xe0) * 0x1000 + x * 0x40 + y)
            return d :: (← decode? t)
        | _ => none
      else
        match t with
        | b :: c :: d :: t => do
            let x ← tail? b
            let y ← tail? c
            let z ← tail? d
            let e ← charFrom? 0x10000 ((a.toNat - 0xf0) * 0x40000 + x * 0x1000 + y * 0x40 + z)
            return e :: (← decode? t)
        | _ => none

def mark : List UInt8 := [0xef, 0xbb, 0xbf]

end Utf8

end EmbeddedMarkup.Text
