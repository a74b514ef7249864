/-!
Pieces of a text between two limits.

A limit counts code points from the beginning or, when it is negative, from the end. Limits outside
the text stand for its nearest end, and a piece whose limits are out of order is empty.
-/

namespace SyntaxForest.Text

/-- The position that a signed limit names in a sequence of `size` elements. -/
def limit (size : Nat) (i : Int) : Nat :=
  if i < 0 then (Int.ofNat size + i).toNat else min size i.toNat

/-- The elements from the limit `start` up to the limit `stop`. -/
def sliceList (xs : List Char) (start stop : Int) : List Char :=
  let lo := limit xs.length start
  (xs.drop lo).take (limit xs.length stop - lo)

/-- The piece of the text from the limit `start` up to the limit `stop`. -/
def slice (s : String) (start stop : Int) : String :=
  String.ofList (sliceList s.toList start stop)

end SyntaxForest.Text
