/-!
Binary floating-point numbers as exact integers.

A finite double is `± mantissa · 2 ^ exponent`. Everything decimal in this library (shortest text,
rounding to places) is computed on that pair with integer arithmetic.
-/

namespace SyntaxForest.Decimal

/-- A double, decoded: a finite one is `± mantissa · 2 ^ exponent`. -/
inductive Binary64 where
  | finite (negative : Bool) (mantissa : Nat) (exponent : Int)
  | infinite (negative : Bool)
  | nan
deriving DecidableEq, Repr

namespace Binary64

/-- Decodes the sign bit, the eleven exponent bits and the fifty-two fraction bits. -/
def ofBits (bits : Nat) : Binary64 :=
  let negative := decide (Nat.pow 2 63 ≤ bits)
  let biased := bits / Nat.pow 2 52 % Nat.pow 2 11
  let fraction := bits % Nat.pow 2 52
  if biased = 2047 then (if fraction = 0 then infinite negative else nan)
  else if biased = 0 then finite negative fraction (-1074)
  else finite negative (Nat.pow 2 52 + fraction) (Int.ofNat biased - 1075)

def ofFloat (x : Float) : Binary64 := ofBits x.toBits.toNat

/-- The integer that equals the number, if there is one. -/
def toInt? : Binary64 → Option Int
  | finite negative m e =>
    let magnitude :=
      if 0 ≤ e then some (m * Nat.pow 2 e.toNat)
      else if m % Nat.pow 2 (-e).toNat = 0 then some (m / Nat.pow 2 (-e).toNat)
      else none
    magnitude.map fun n => if negative then -(Int.ofNat n) else Int.ofNat n
  | _ => none

/-- The greatest integer that is not above the number, if the number is finite. -/
def floor? : Binary64 → Option Int
  | finite negative m e =>
    let signed := if negative then -(Int.ofNat m) else Int.ofNat m
    some (if 0 ≤ e then signed * Int.ofNat (Nat.pow 2 e.toNat)
      else Int.fdiv signed (Int.ofNat (Nat.pow 2 (-e).toNat)))
  | _ => none

end Binary64

end SyntaxForest.Decimal
