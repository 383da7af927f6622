import EmbeddedMarkup.Decimal.Shortest

/-!
# Numbers

A number is a whole number of any size or a floating point number. Two numbers are compared by their
exact values: neither is rounded to the kind of the other. What is not a number is neither equal to
anything nor in any order.
-/

namespace EmbeddedMarkup.Decimal

inductive Number where
  | whole (n : Int)
  | float (x : Float)

namespace Number

/-- The sign of a floating point number less a whole number; none for what is not a number. -/
def signBeyond? (x : Float) (n : Int) : Option Int :=
  match parts x with
  | .nan => none
  | .infinite negative => some (if negative then -1 else 1)
  | .zero _ => some (-n).sign
  | .finite negative b =>
      let r := Ratio.scale b.m 2 b.q
      let top : Int := if negative then -(r.num : Int) else r.num
      some (top - n * r.den).sign

def same : Number → Number → Bool
  | whole m, whole n => m == n
  | whole m, float x => signBeyond? x m == some 0
  | float x, whole n => signBeyond? x n == some 0
  | float x, float y => x == y

def less : Number → Number → Bool
  | whole m, whole n => decide (m < n)
  | whole m, float x => signBeyond? x m == some 1
  | float x, whole n => signBeyond? x n == some (-1)
  | float x, float y => x < y

end Number

end EmbeddedMarkup.Decimal
