import SyntaxForest.Decimal.Rounded
import SyntaxForest.Decimal.Written

/-!
Decimals with a chosen number of digits.

The exact value `m · 2 ^ q` is rounded once, to the nearest decimal with so many places after the
point or so many significant digits, a tie going to the even one. It is written with a point among
its digits, with an exponent, or in whichever of the two ways suits its size.
-/

namespace SyntaxForest.Decimal

/-- How a decimal is written. -/
inductive Manner where
  /-- With this many places after the point. -/
  | fixed (places : Nat)
  /-- With one digit before the point and this many after it, and an exponent. -/
  | scientific (places : Nat)
  /-- With this many significant digits; zeros at the end are dropped. -/
  | general (digits : Nat)
deriving DecidableEq, Repr

/-- The exponent of the first digit of a positive quotient: the `e` with `10 ^ e ≤ num / den < 10 ^
(e + 1)`. -/
def leadingExponent (num den : Nat) : Int :=
  if den ≤ num then Int.ofNat (Nat.toDigits 10 (num / den)).length - 1
  else
    let k := (Nat.toDigits 10 den).length - (Nat.toDigits 10 num).length
    if den ≤ num * Nat.pow 10 k then -Int.ofNat k else -Int.ofNat k - 1

/-- The value rounded to `n + 1` significant digits, and the exponent of the first of them. -/
def significantDigits (m : Nat) (q : Int) (n : Nat) : List Char × Int :=
  if m = 0 then (zeros (n + 1), 0)
  else
    let num := m * Nat.pow 2 q.toNat
    let den := Nat.pow 2 (-q).toNat
    let e := leadingExponent num den
    let shift := Int.ofNat n - e
    let c := roundDiv (num * Nat.pow 10 shift.toNat) (den * Nat.pow 10 (-shift).toNat)
    let digits := Nat.toDigits 10 c
    if digits.length = n + 1 then (digits, e) else (digits.take (n + 1), e + 1)

/-- The part after the point, with the point if there is something to show or if it is wanted in any
case. -/
def pointed (keepPoint : Bool) (fraction : List Char) : List Char :=
  if fraction.isEmpty && !keepPoint then [] else '.' :: fraction

def fixedText (keepPoint : Bool) (m : Nat) (q : Int) (places : Nat) : List Char :=
  let digits := Nat.toDigits 10 (roundedUnits m q places)
  let padded := zeros (places + 1 - digits.length) ++ digits
  let whole := padded.length - places
  padded.take whole ++ pointed keepPoint (padded.drop whole)

/-- The exponent with its sign and at least two digits. -/
def exponentText (e : Int) : List Char :=
  let size := Nat.toDigits 10 e.natAbs
  'e' :: (if e < 0 then '-' else '+') :: zeros (2 - size.length) ++ size

def dropZeros (digits : List Char) : List Char :=
  (digits.reverse.dropWhile (· == '0')).reverse

/-- So many significant digits, positional if the first digit stands no further than four places
after the point and all digits before the point are among them. -/
def generalText (keepPoint : Bool) (m : Nat) (q : Int) (n : Nat) : List Char :=
  let (digits, e) := significantDigits m q (n - 1)
  let trim (fraction : List Char) : List Char := if keepPoint then fraction else dropZeros fraction
  if -4 ≤ e && e < Int.ofNat (max n 1) then
    if e < 0 then
      '0' :: pointed keepPoint (trim (zeros ((-e).toNat - 1) ++ digits))
    else
      digits.take (e.toNat + 1) ++ pointed keepPoint (trim (digits.drop (e.toNat + 1)))
  else digits.take 1 ++ pointed keepPoint (trim (digits.drop 1)) ++ exponentText e

/-- No double has more significant digits than this. -/
def mostDigits : Nat := 800

/-- The text of the value `m · 2 ^ q` in a manner. Zeros at the end that are not kept are not
made. -/
def Manner.text (keepPoint : Bool) (m : Nat) (q : Int) : Manner → List Char
  | fixed places => fixedText keepPoint m q places
  | scientific places =>
    let (digits, e) := significantDigits m q places
    digits.take 1 ++ pointed keepPoint (digits.drop 1) ++ exponentText e
  | general n => generalText keepPoint m q (if keepPoint then n else min n mostDigits)

end SyntaxForest.Decimal
