import EmbeddedMarkup.Text.Digit

/-!
# Shortest decimal of a binary fraction

A finite binary floating point number is `m * 2 ^ q`. Of all decimals that lie so near to it that
reading them gives the number back, `shortest` takes one with the fewest digits, and of those the
nearest. The neighbours of the number on each decimal grid are tested with exact integer
arithmetic, one grid after the other.
-/

namespace EmbeddedMarkup.Decimal

/-- A binary fraction `m * 2 ^ q`; `narrow` says that the next smaller number is only half as far
away as the next greater one. -/
structure Binary where
  m : Nat
  q : Int
  narrow : Bool

structure Scientific where
  digits : Nat
  exponent : Int

structure Ratio where
  num : Nat
  den : Nat

def Ratio.scale (n b : Nat) (e : Int) : Ratio :=
  if 0 ≤ e then ⟨n * b.pow e.toNat, 1⟩ else ⟨n, b.pow (-e).toNat⟩

def Ratio.mulPow (r : Ratio) (b : Nat) (e : Int) : Ratio :=
  if 0 ≤ e then ⟨r.num * b.pow e.toNat, r.den⟩ else ⟨r.num, r.den * b.pow (-e).toNat⟩

def Ratio.below (strict : Bool) (r s : Ratio) : Bool :=
  if strict then decide (r.num * s.den < s.num * r.den) else decide (r.num * s.den ≤ s.num * r.den)

def digitCount (n : Nat) : Nat := (Nat.toDigits 10 n).length

/-- The power of ten just at or below the ratio, found by correcting a guess. -/
def floorLog10 (r : Ratio) : Int :=
  let guess : Int := (digitCount r.num : Int) - (digitCount r.den : Int)
  let one : Ratio := ⟨1, 1⟩
  if Ratio.below false (one.mulPow 10 guess) r then guess else guess - 1

def Binary.interval (b : Binary) : Ratio × Ratio × Ratio :=
  let value := Ratio.scale b.m 2 b.q
  let upper := Ratio.scale (2 * b.m + 1) 2 (b.q - 1)
  let lower := if b.narrow then Ratio.scale (4 * b.m - 1) 2 (b.q - 2)
    else Ratio.scale (2 * b.m - 1) 2 (b.q - 1)
  (value, lower, upper)

/-- The candidate of the grid with spacing `10 ^ e` that rounds to the number, if there is one. -/
def onGrid? (b : Binary) (e : Int) : Option Nat :=
  let (value, lower, upper) := b.interval
  let scaled := value.mulPow 10 (-e)
  let down := scaled.num / scaled.den
  let rest := scaled.num % scaled.den
  let strict := b.m % 2 == 1
  let fits (d : Nat) : Bool :=
    let x := Ratio.scale d 10 e
    Ratio.below strict lower x && Ratio.below strict x upper
  let nearest := if 2 * rest < scaled.den then down
    else if 2 * rest = scaled.den then down + down % 2
    else down + 1
  let other := if nearest = down then down + 1 else down
  if fits nearest then some nearest else if fits other then some other else none

def firstGrid (b : Binary) (top : Int) : (left digits : Nat) → Scientific
  | 0, _ => ⟨b.m, 0⟩
  | left + 1, digits =>
      let e := top - digits + 1
      match onGrid? b e with
      | some d => ⟨d, e⟩
      | none => firstGrid b top left (digits + 1)

/-- The shortest decimal that reads back as the number. -/
def shortest (b : Binary) : Scientific :=
  firstGrid b (floorLog10 (Ratio.scale b.m 2 b.q)) 17 1

inductive Parts where
  | nan
  | infinite (negative : Bool)
  | zero (negative : Bool)
  | finite (negative : Bool) (value : Binary)

def parts (x : Float) : Parts :=
  let bits := x.toBits.toNat
  let negative := decide (Nat.pow 2 63 ≤ bits)
  let exponent : Nat := bits / Nat.pow 2 52 % Nat.pow 2 11
  let fraction : Nat := bits % Nat.pow 2 52
  if exponent = 2047 then
    if fraction = 0 then .infinite negative else .nan
  else if exponent = 0 then
    if fraction = 0 then .zero negative else .finite negative ⟨fraction, -1074, false⟩
  else
    .finite negative ⟨Nat.pow 2 52 + fraction, Int.ofNat exponent - 1075,
      fraction == 0 && 1 < exponent⟩

structure Format where
  /-- The least position of the point, counted from the first digit, that is written without an
  exponent. -/
  least : Int
  greatest : Int
  nan : Text
  infinity : Text

def exponentText (e : Int) : Text :=
  let ds := Text.ofNat e.natAbs
  let padded := if ds.length < 2 then '0' :: ds else ds
  'e' :: (if e < 0 then '-' else '+') :: padded

/-- A decimal with digits `ds`, whose point stands `point` places after the first digit's left
edge. -/
def Format.layOut (f : Format) (ds : Text) (point : Int) : Text :=
  if f.least ≤ point ∧ point ≤ f.greatest then
    if point ≤ 0 then
      '0' :: '.' :: List.replicate (-point).toNat '0' ++ ds
    else
      let n := point.toNat
      if ds.length ≤ n then ds ++ List.replicate (n - ds.length) '0' ++ ['.', '0']
      else ds.take n ++ '.' :: ds.drop n
  else
    match ds with
    | [] => []
    | [d] => d :: exponentText (point - 1)
    | d :: rest => d :: '.' :: rest ++ exponentText (point - 1)

def Format.text (f : Format) (x : Float) : Text :=
  let signed (negative : Bool) (t : Text) : Text := if negative then '-' :: t else t
  match parts x with
  | .nan => f.nan
  | .infinite negative => signed negative f.infinity
  | .zero negative => signed negative ['0', '.', '0']
  | .finite negative b =>
      let s := shortest b
      let all := Text.ofNat s.digits
      let ds := Text.dropRightWhile (· == '0') all
      signed negative (f.layOut ds (s.exponent + all.length))

def shown : Format := ⟨-3, 16, "nan".toList, "inf".toList⟩

def exchanged : Format := ⟨-3, 16, "NaN".toList, "Infinity".toList⟩

/-- The integer part of a floating point number, none for an infinity or what is no number. -/
def truncate? (x : Float) : Option Int :=
  match parts x with
  | .nan => none
  | .infinite _ => none
  | .zero _ => some 0
  | .finite negative b =>
      let r := Ratio.scale b.m 2 b.q
      let n : Int := Int.ofNat (r.num / r.den)
      some (if negative then -n else n)

end EmbeddedMarkup.Decimal
