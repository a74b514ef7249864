import SyntaxForest.Text.Slice

/-!
# Pieces of a text

A limit of a slice may count from either end of the text and may lie outside of it. Here it is told
once what that comes to, so that nobody else has to look into limits.

* **`limit_of_nonneg`**, **`limit_of_neg`**, **`limit_le`** — the position that a limit names.
* **`slice_from`**, **`slice_ofNat`** — slices that begin, or begin and end, at positions of the
  text.
* **`slice_slice`** — a part that is cut off the front of a slice is a slice of the whole text.
-/

namespace SyntaxForest.Text

theorem limit_of_nonneg {size : Nat} {i : Int} (h : 0 ≤ i) : limit size i = min size i.toNat :=
  if_neg (Int.not_lt.mpr h)

theorem limit_of_neg {size : Nat} {i : Int} (h : i < 0) : limit size i = (size + i : Int).toNat :=
  if_pos h

theorem limit_le (size : Nat) (i : Int) : limit size i ≤ size := by
  rcases Int.lt_or_le i 0 with h | h
  · rw [limit_of_neg h]
    omega
  · rw [limit_of_nonneg h]
    omega

theorem limit_ofNat {size k : Nat} (h : k ≤ size) : limit size (k : Int) = k := by
  rw [limit_of_nonneg (Int.natCast_nonneg k), Int.toNat_natCast, Nat.min_eq_right h]

/-- A slice from a position of the text, whose end may count from either end of it. -/
theorem slice_from {text : String} {start : Nat} (h : start ≤ text.length) (stop : Int) :
    slice text start stop
      = String.ofList ((text.toList.drop start).take (limit text.length stop - start)) := by
  rw [slice, sliceList, String.length_toList, limit_ofNat h]

/-- A slice between two positions of the text. They may be out of order: the slice is then empty. -/
theorem slice_ofNat {text : String} {i j : Nat} (hi : i ≤ text.length) (hj : j ≤ text.length) :
    slice text i j = String.ofList ((text.toList.drop i).take (j - i)) := by
  rw [slice_from hi, limit_ofNat hj]

/-- Cutting the front off a slice. The second slice counts from the beginning of the first, so its
end is given as a difference of positions of the whole text. -/
theorem slice_slice {text : String} {i k j : Nat} (hik : i ≤ k) (hkj : k ≤ j)
    (hj : j ≤ text.length) :
    slice (slice text i j) 0 ((k : Int) - i) = slice text i k := by
  have hi : i ≤ text.length := by omega
  -- the second slice ends within the first
  have hlong : k - i ≤ (slice text i j).length := by
    rw [slice_ofNat hi hj, String.length_ofList, List.length_take, List.length_drop,
      String.length_toList]
    omega
  have hcut := slice_ofNat (Nat.zero_le (slice text i j).length) hlong
  rw [Int.natCast_sub hik, Nat.sub_zero, List.drop_zero] at hcut
  refine hcut.trans ?_
  rw [slice_ofNat hi hj, String.toList_ofList, List.take_take,
    Nat.min_eq_left (Nat.sub_le_sub_right hkj i),
    slice_ofNat hi (Nat.le_trans hkj hj)]

end SyntaxForest.Text
