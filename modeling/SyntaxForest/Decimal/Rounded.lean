import SyntaxForest.Decimal.Binary64

/-!
Rounding a double to decimal places.

The exact value is rounded to the nearest multiple of the last place, a tie going to the even one,
and the double nearest to that decimal is the result.
-/

namespace SyntaxForest.Decimal

/-- The integer nearest to `num / den`; a tie goes to the even one. -/
def roundDiv (num den : Nat) : Nat :=
  let q := num / den
  let twice := 2 * (num % den)
  if twice < den then q
  else if den < twice then q + 1
  else if q % 2 = 0 then q else q + 1

/-- The value rounded to `places` decimal places, in units of the last place. -/
def roundedUnits (m : Nat) (q : Int) (places : Nat) : Nat :=
  roundDiv (m * Nat.pow 2 q.toNat * Nat.pow 10 places) (Nat.pow 2 (-q).toNat)

/-- The double nearest to `x` rounded to `places` decimal places. -/
def roundTo (places : Nat) (x : Float) : Float :=
  match Binary64.ofFloat x with
  | .finite negative m q =>
    let magnitude := Float.ofScientific (roundedUnits m q places) true places
    if negative then -magnitude else magnitude
  | _ => x

end SyntaxForest.Decimal
