import SyntaxForest.Decimal.Shortest

/-!
The text of a double: its shortest decimal, positional from `0.0001` up to below `10 ^ 16`.

Positional text always has a point. Outside that range the text has one digit before the point, no
point after a lone digit, and an exponent with a sign and at least two digits.
-/

namespace SyntaxForest.Decimal

/-- The words for the values without digits. -/
structure SpecialWords where
  nan : String
  infinity : String

def zeros (n : Nat) : List Char := List.replicate n '0'

/-- Digits with the point after the first `point` places. -/
def positional (digits : List Char) (point : Int) : List Char :=
  let n := Int.ofNat digits.length
  if point ≤ 0 then '0' :: '.' :: zeros (-point).toNat ++ digits
  else if n ≤ point then digits ++ zeros (point - n).toNat ++ ['.', '0']
  else digits.take point.toNat ++ '.' :: digits.drop point.toNat

/-- Digits with the point after the first one, and the exponent that this needs. -/
def exponential (digits : List Char) (point : Int) : List Char :=
  let e := point - 1
  let size := (Nat.toDigits 10 e.natAbs)
  let width := zeros (2 - size.length) ++ size
  let tail := digits.drop 1
  digits.take 1 ++ (if tail.isEmpty then [] else '.' :: tail)
    ++ 'e' :: (if e < 0 then '-' else '+') :: width

/-- The decimal digits without the zeros at their end. -/
def significant (s : Scientific) : List Char :=
  ((Nat.toDigits 10 s.coefficient).reverse.dropWhile (· == '0')).reverse

/-- The text of a positive decimal. -/
def Scientific.text (s : Scientific) : List Char :=
  let digits := significant s
  let point := Int.ofNat (Nat.toDigits 10 s.coefficient).length + s.exponent
  if -4 < point && point ≤ 16 then positional digits point else exponential digits point

/-- The text of a decoded double. -/
def Binary64.text (words : SpecialWords) : Binary64 → String
  | .nan => words.nan
  | .infinite negative => (if negative then "-" else "") ++ words.infinity
  | .finite negative m q =>
    (if negative then "-" else "")
      ++ (if m = 0 then "0.0" else String.ofList (shortest m q).text)

/-- The text of a double. -/
def text (words : SpecialWords) (x : Float) : String := (Binary64.ofFloat x).text words

end SyntaxForest.Decimal
