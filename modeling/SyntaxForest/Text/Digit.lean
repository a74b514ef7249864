/-!
Decimal digits of all scripts.

Every script has its ten digits side by side, in order, so that the table names the zeros alone.
-/

namespace SyntaxForest.Text

/-- The code points of the zeros of Unicode 14. -/
def zeroDigits : List Nat :=
  [48, 1632, 1776, 1984, 2406, 2534, 2662, 2790, 2918, 3046, 3174, 3302, 3430, 3558, 3664, 3792,
   3872, 4160, 4240, 6112, 6160, 6470, 6608, 6784, 6800, 6992, 7088, 7232, 7248, 42528, 43216,
   43264, 43472, 43504, 43600, 44016, 65296, 66720, 68912, 69734, 69872, 69942, 70096, 70384, 70736,
   70864, 71248, 71360, 71472, 71904, 72016, 72784, 73040, 73120, 92768, 92864, 93008, 120782,
   120792, 120802, 120812, 120822, 123200, 123632, 125264, 130032]

/-- The value of a decimal digit of any script. -/
def digitValue? (c : Char) : Option Nat :=
  (zeroDigits.find? fun first => first ≤ c.toNat && c.toNat < first + 10).map (c.toNat - ·)

/-- The ASCII digit with the value of a decimal digit; other characters stay. -/
def asciiDigit (c : Char) : Char :=
  if c.toNat < 128 then c else ((digitValue? c).map fun v => Char.ofNat (48 + v)).getD c

example : digitValue? '7' = some 7 := by decide

example : asciiDigit '٣' = '3' := by decide

end SyntaxForest.Text
