import SyntaxForest.Decimal.Binary64

/-!
The shortest decimal of a double: the fewest digits that read back as the same double.

The reals that round to `m · 2 ^ q` form an interval, whose ends belong to it when `m` is even. For
one, two, and so on up to seventeen digits the two neighbours of the value on that decimal grid are
tried; the first grid with a point in the interval wins. Of two such points the nearer one is taken,
and the even one if they are equally near.
-/

namespace SyntaxForest.Decimal

/-- The number `coefficient · 10 ^ exponent`. -/
structure Scientific where
  coefficient : Nat
  exponent : Int
deriving DecidableEq, Repr

/-- A positive rational and the ends of the interval around it, over one denominator. -/
structure Interval where
  low : Nat
  value : Nat
  high : Nat
  den : Nat
  closed : Bool

namespace Interval

/-- The reals that round to `m · 2 ^ q`. Below a power of two the spacing halves. -/
def ofBinary (m : Nat) (q : Int) : Interval :=
  let below := if m = Nat.pow 2 52 && decide (-1074 < q) then 1 else 2
  let up := Nat.pow 2 (q - 2).toNat
  { low := (4 * m - below) * up, value := 4 * m * up, high := (4 * m + 2) * up,
    den := Nat.pow 2 (2 - q).toNat, closed := m % 2 == 0 }

/-- The interval in units of `10 ^ e`. -/
def inUnits (i : Interval) (e : Int) : Interval :=
  let up := Nat.pow 10 (-e).toNat
  { i with low := i.low * up, value := i.value * up, high := i.high * up,
           den := i.den * Nat.pow 10 e.toNat }

/-- The interval holds the integer `d`. -/
def holds (i : Interval) (d : Nat) : Bool :=
  if i.closed then i.low ≤ d * i.den && d * i.den ≤ i.high
  else i.low < d * i.den && d * i.den < i.high

/-- The integer of the interval that is nearest to its value, if one of the value's two neighbours
is in it. -/
def nearest? (i : Interval) : Option Nat :=
  let d := i.value / i.den
  match i.holds d, i.holds (d + 1) with
  | false, false => none
  | true, false => some d
  | false, true => some (d + 1)
  | true, true =>
    let below := i.value - d * i.den
    let above := (d + 1) * i.den - i.value
    if below < above then some d
    else if above < below then some (d + 1)
    else some (if d % 2 = 0 then d else d + 1)

end Interval

/-- How many zeros follow the point before the first digit of `num / den`, which is below one. -/
def leadingZeros (num den : Nat) : Nat → Nat
  | 0 => 0
  | fuel + 1 => if den ≤ num * 10 then 0 else leadingZeros (num * 10) den fuel + 1

/-- The `k` with `10 ^ (k - 1) ≤ num / den < 10 ^ k`, for the magnitudes that doubles have. -/
def magnitude (num den : Nat) : Int :=
  if den ≤ num then Int.ofNat (Nat.toDigits 10 (num / den)).length
  else -Int.ofNat (leadingZeros num den 400)

/-- The point with `digits` digits nearest to the interval's value, if that grid has one in it. -/
def onGrid? (i : Interval) (k : Int) (digits : Nat) : Option Scientific :=
  let e := k - Int.ofNat digits
  (i.inUnits e).nearest?.map fun d => ⟨d, e⟩

/-- The shortest decimal that reads back as `m · 2 ^ q`, where `0 < m`. -/
def shortest (m : Nat) (q : Int) : Scientific :=
  let i := Interval.ofBinary m q
  let k := magnitude i.value i.den
  ((List.range 17).findSome? fun n => onGrid? i k (n + 1)).getD ⟨0, 0⟩

end SyntaxForest.Decimal
