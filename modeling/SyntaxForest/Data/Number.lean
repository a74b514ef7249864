import SyntaxForest.Decimal.Binary64
import SyntaxForest.Fault

/-!
Numbers that are given as plain data: integers, and floating-point numbers beside them.

An integer is compared with a floating-point number exactly, through the integers around it.
-/

namespace SyntaxForest

/-- A number as it is given. -/
inductive Number where
  | int (value : Int)
  | float (value : Float)

namespace Number

/-- The number that a value is; a flag counts as one or zero, and other values are no numbers. -/
def ofDatum : Datum → Except Fault Number
  | .int n => .ok (int n)
  | .bool b => .ok (int (if b then 1 else 0))
  | .float x => .ok (float x)
  | _ => .error (.badType "a number is required")

/-- The number as plain data. -/
def toDatum : Number → Datum
  | int n => .int n
  | float x => .float x

/-- The greatest integer that is not above the number, if the number is finite. -/
def floor? : Number → Option Int
  | int n => some n
  | float x => (Decimal.Binary64.ofFloat x).floor?

/-- The least integer that is not below the number, if the number is finite. -/
def ceil? : Number → Option Int
  | int n => some n
  | float x => ((Decimal.Binary64.ofFloat (-x)).floor?).map fun n => -n

/-- The number is less than an integer. -/
def isBelow (x : Number) (n : Int) : Bool :=
  match x.floor?, x with
  | some k, _ => k < n
  | none, float x => x < 0.0
  | none, int _ => false

/-- The number is greater than an integer. -/
def isAbove (x : Number) (n : Int) : Bool :=
  match x.ceil?, x with
  | some k, _ => n < k
  | none, float x => 0.0 < x
  | none, int _ => false

/-- The number is at least an integer. -/
def reaches (x : Number) (n : Int) : Bool := x.isAbove n || x.floor? = some n

/-- The sum of two numbers; an integer that no floating-point number comes near cannot be added to
one. -/
def add (x y : Number) : Except Fault Number :=
  let nearest (n : Int) : Except Fault Float :=
    if (Float.ofInt n).isInf then .error .beyondFloat else .ok (Float.ofInt n)
  match x, y with
  | int m, int n => .ok (int (m + n))
  | int m, float y => (nearest m).map fun x => float (x + y)
  | float x, int n => (nearest n).map fun y => float (x + y)
  | float x, float y => .ok (float (x + y))

/-- The sum of the number and an integer. -/
def plus (x : Number) (n : Int) : Number :=
  match x with
  | int m => int (m + n)
  | float x => float (x + Float.ofInt n)

end Number

end SyntaxForest
