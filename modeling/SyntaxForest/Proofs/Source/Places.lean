import SyntaxForest.Proofs.Source.LineIndex
import SyntaxForest.Tree.SyntaxTree

/-!
# Places of a text

The line index of a text against counting its line feeds, and the two directions of the index
against each other.

* **`placeAfter_fst`**, **`placeAfter_snd`** — reading some characters counts their line feeds, and
  then what follows the last one.
* **`placeAfter_take_lt`** — places grow strictly with the offset.
* **`lineColumn_counts`** — the line and column that the index finds by halving are those counts.
* **`offset_inverse`** — an offset is found at just the line and column where it is placed.
-/

namespace SyntaxForest.LineIndex

open SyntaxForest

/-! ## Counting -/

/-- Where the last line of some characters begins: just after their last line feed, or at zero if
there is none. -/
def lastLineStart (cs : List Char) : Nat := cs.length - cs.reverse.idxOf '\n'

theorem lastLineStart_le (cs : List Char) : lastLineStart cs ≤ cs.length := Nat.sub_le _ _

theorem lastLineStart_snoc (cs : List Char) (c : Char) :
    lastLineStart (cs ++ [c]) = if c = '\n' then cs.length + 1 else lastLineStart cs := by
  rw [lastLineStart, lastLineStart, List.reverse_append, List.reverse_singleton,
    List.singleton_append,
    List.idxOf_cons, List.length_append, List.length_singleton]
  by_cases hc : c = '\n'
  · simp [hc]
  · rw [beq_eq_false_iff_ne.mpr hc, cond_false, if_neg hc]
    omega

/-- **The line counts line feeds.** -/
theorem placeAfter_fst (cs : List Char) : (placeAfter cs).1 = 1 + cs.count '\n' := by
  induction cs using List.reverseRecOn with
  | nil => rfl
  | append_singleton cs c ih =>
    rw [placeAfter_snoc, advance, List.count_append, List.count_singleton]
    by_cases hc : c = '\n'
    · simp only [hc, if_true, ih, beq_self_eq_true]
      omega
    · simp [hc, ih]

/-- **The column counts on from the last line feed.** -/
theorem placeAfter_snd (cs : List Char) : (placeAfter cs).2 + lastLineStart cs = cs.length + 1 := by
  induction cs using List.reverseRecOn with
  | nil => rfl
  | append_singleton cs c ih =>
    rw [placeAfter_snoc, advance, lastLineStart_snoc, List.length_append, List.length_singleton]
    by_cases hc : c = '\n'
    · simp only [hc, if_true]
      omega
    · simp only [hc, if_false]
      omega

theorem lineCount_ofText (text : String) :
    (ofText text).lineCount = 1 + text.toList.count '\n' := by
  have hcount := placeAfter_fst text.toList
  rw [placeAfter_eq] at hcount
  rw [← hcount]
  exact List.size_toArray

/-! ## The order of places -/

theorem lt_advance (place : Nat × Nat) (c : Char) :
    Prod.Lex (· < ·) (· < ·) place (advance place c) := by
  rw [Prod.lex_def, advance]
  split
  · exact Or.inl (Nat.lt_succ_self _)
  · exact Or.inr ⟨rfl, Nat.lt_succ_self _⟩

theorem lt_of_lt_of_placeLE {p q r : Nat × Nat} (hpq : Prod.Lex (· < ·) (· < ·) p q)
    (hqr : PlaceLE q r) :
    Prod.Lex (· < ·) (· < ·) p r := by
  rw [Prod.lex_def] at hpq ⊢
  unfold PlaceLE at hqr
  omega

/-- The next character makes the place a later one, and the others do not bring it back. -/
theorem placeAfter_take_lt (cs : List Char) {i j : Nat} (hij : i < j) (hi : i < cs.length) :
    Prod.Lex (· < ·) (· < ·) (placeAfter (cs.take i)) (placeAfter (cs.take j)) := by
  refine lt_of_lt_of_placeLE ?_ (placeAfter_take_le cs (Nat.succ_le_of_lt hij))
  rw [List.take_succ_eq_append_getElem hi, placeAfter_snoc]
  exact lt_advance _ _

theorem lineColumn_of_inside {text : String} {offset : Int} (hzero : 0 ≤ offset)
    (hlength : offset ≤ text.length) :
    (ofText text).lineColumn offset = placeAfter (text.toList.take offset.toNat) := by
  have hcast : ((offset.toNat : Nat) : Int) = offset := Int.toNat_of_nonneg hzero
  conv_lhs => rw [← hcast]
  exact lineColumn_eq text offset.toNat (by omega)

theorem lineColumn_of_outside {text : String} {offset : Int}
    (h : offset < 0 ∨ text.length < offset) :
    (ofText text).lineColumn offset = (1, 1) := by
  have hlength : (ofText text).length = text.length := String.length_toList
  rw [lineColumn, hlength, if_pos]
  simpa using h

/-- **Places grow strictly with the offset**, so no two offsets have one place. -/
theorem lineColumn_lt (text : String) {i j : Int} (hi : 0 ≤ i) (hij : i < j)
    (hj : j ≤ text.length) :
    Prod.Lex (· < ·) (· < ·) ((ofText text).lineColumn i) ((ofText text).lineColumn j) := by
  rw [lineColumn_of_inside hi (by omega), lineColumn_of_inside (by omega) hj]
  refine placeAfter_take_lt _ (by omega) ?_
  rw [String.length_toList]
  omega

/-- **Halving the table of lines places an offset as counting does.** An offset outside of the text
is placed at its beginning. Any other is on the line that the line feeds before it count to, in the
column that counts on from the last of them. So places grow strictly with the offset, and there is
one line more than there are line feeds, which is also what the metrics of a tree count. -/
theorem lineColumn_counts (text : String) :
    (∀ offset : Int, offset < 0 ∨ text.length < offset → (ofText text).lineColumn offset = (1, 1))
      ∧ (∀ offset : Int, 0 ≤ offset → offset ≤ text.length →
          ((ofText text).lineColumn offset).1 = 1 + (text.toList.take offset.toNat).count '\n'
            ∧ ((ofText text).lineColumn offset).2
              = offset - lastLineStart (text.toList.take offset.toNat) + 1)
      ∧ (∀ i j : Int, 0 ≤ i → i < j → j ≤ text.length →
          Prod.Lex (· < ·) (· < ·) ((ofText text).lineColumn i) ((ofText text).lineColumn j))
      ∧ (ofText text).lineCount = 1 + text.toList.count '\n'
      ∧ ∀ tree : SyntaxTree, tree.source = text →
        tree.metrics.lineCount = (ofText text).lineCount := by
  refine ⟨fun offset => lineColumn_of_outside, fun offset hzero hlength => ?_,
    fun i j => lineColumn_lt text,
    lineCount_ofText text, fun tree htree => ?_⟩
  -- the line and the column, as counts of the characters before the offset
  · have hinside : offset.toNat ≤ text.toList.length := by
      rw [String.length_toList]
      omega
    have hcolumn := placeAfter_snd (text.toList.take offset.toNat)
    rw [List.length_take_of_le hinside] at hcolumn
    rw [lineColumn_of_inside hzero hlength]
    exact ⟨placeAfter_fst _, by omega⟩
  -- the metrics count line feeds themselves
  · rw [lineCount_ofText, ← htree]
    show ((tree.source.toList.count '\n' : Nat) : Int) + 1 = _
    omega

/-- The empty last line has a place of its own, after the line feed that begins it. -/
example :
    ((ofText "a\n\n").lineColumn 2, (ofText "a\n\n").lineColumn 3) = ((2, 1), (3, 1)) := by
      decide +kernel

/-! ## Finding what was placed -/

theorem offset?_eq_some_iff_lineColumn {text : String} {line column offset : Int} :
    ((ofText text).offset? line column).map Int.ofNat = some offset
      ↔ 0 ≤ offset ∧ offset < text.length
        ∧ ((ofText text).lineColumn offset).1 = line ∧ ((ofText text).lineColumn offset).2
          = column := by
  rw [Option.map_eq_some_iff]
  constructor
  · rintro ⟨found, hfound, rfl⟩
    obtain ⟨hlength, hline, hcolumn⟩ := offset?_eq_some_iff.mp hfound
    rw [Int.ofNat_eq_natCast, lineColumn_eq text found (Nat.le_of_lt hlength)]
    exact ⟨by omega, by omega, hline.symm, hcolumn.symm⟩
  · rintro ⟨hzero, hlength, hline, hcolumn⟩
    rw [lineColumn_of_inside hzero (by omega)] at hline hcolumn
    refine ⟨offset.toNat, offset?_eq_some_iff.mpr ⟨by omega, hline.symm, hcolumn.symm⟩, ?_⟩
    exact Int.toNat_of_nonneg hzero

theorem offset?_behind_feed {text : String} {feed : Nat} (hfeed : text.toList[feed]? = some '\n')
    {column : Int} (hcolumn : ((ofText text).lineColumn feed).2 < column) :
    (ofText text).offset? ((ofText text).lineColumn feed).1 column = none := by
  obtain ⟨hinside, hchar⟩ := List.getElem?_eq_some_iff.mp hfeed
  rw [lineColumn_eq text feed (String.length_toList ▸ hinside.le)] at hcolumn ⊢
  -- suppose that something is found there
  cases hfound : (ofText text).offset? (placeAfter (text.toList.take feed)).1 column with
  | none => rfl
  | some offset =>
    obtain ⟨-, hline, hplace⟩ := offset?_eq_some_iff.mp hfound
    rcases Nat.lt_or_ge feed offset with hlater | hearlier
    · -- the line feed has brought the place to a later line
      have hnext := placeAfter_take_le text.toList (Nat.succ_le_of_lt hlater)
      rw [List.take_succ_eq_append_getElem hinside, placeAfter_snoc, hchar, advance,
        if_pos rfl, PlaceLE] at hnext
      omega
    · have hbefore := placeAfter_take_le text.toList hearlier
      rw [PlaceLE] at hbefore
      omega

/-- **Finding an offset undoes placing it.** An offset is found at a line and column just if it is
that of a character which is placed there, so at all other lines and columns nothing is found: not
where the text ends, not behind the line feed of a line, on no line that the text does not have, and
at nothing below one. Every character is found where it is placed. -/
theorem offset_inverse (text : String) :
    (∀ line column offset : Int, ((ofText text).offset? line column).map Int.ofNat = some offset
        ↔ 0 ≤ offset ∧ offset < text.length
          ∧ ((ofText text).lineColumn offset).1 = line ∧ ((ofText text).lineColumn offset).2
            = column)
      ∧ (∀ line column : Int, (ofText text).offset? line column = none
          ↔ ∀ offset : Int, 0 ≤ offset → offset < text.length →
            ¬(((ofText text).lineColumn offset).1 = line ∧ ((ofText text).lineColumn offset).2
              = column))
      ∧ (ofText text).offset? ((ofText text).lineColumn text.length).1
        ((ofText text).lineColumn text.length).2 = none
      ∧ (∀ feed : Nat, text.toList[feed]? = some '\n' →
          ∀ column : Int, ((ofText text).lineColumn feed).2 < column →
            (ofText text).offset? ((ofText text).lineColumn feed).1 column = none)
      ∧ (∀ line column : Int, (ofText text).lineCount < line ∨ line < 1 ∨ column < 1 →
          (ofText text).offset? line column = none)
      ∧ ∀ offset : Nat, offset < text.length →
          (ofText text).offset? ((ofText text).lineColumn offset).1
            ((ofText text).lineColumn offset).2
            = some offset := by
  have hnone : ∀ line column : Int, (ofText text).offset? line column = none
      ↔ ∀ offset : Int, 0 ≤ offset → offset < text.length →
        ¬(((ofText text).lineColumn offset).1 = line ∧ ((ofText text).lineColumn offset).2
          = column) := by
    intro line column
    rw [← Option.map_eq_none_iff (f := Int.ofNat), Option.eq_none_iff_forall_ne_some]
    constructor
    · intro h offset hzero hlength hplace
      exact h offset (offset?_eq_some_iff_lineColumn.mpr ⟨hzero, hlength, hplace⟩)
    · intro h offset hfound
      obtain ⟨hzero, hlength, hplace⟩ := offset?_eq_some_iff_lineColumn.mp hfound
      exact h offset hzero hlength hplace
  refine ⟨fun line column offset => offset?_eq_some_iff_lineColumn, hnone, ?_,
    fun feed hfeed column => offset?_behind_feed hfeed, fun line column hwrong => ?_,
    fun offset hinside => ?_⟩
  · -- the place of the end comes after those of all characters
    refine (hnone _ _).mpr fun offset hzero hlength hplace => ?_
    have hlt := lineColumn_lt text hzero hlength (Int.le_refl _)
    rw [Prod.lex_def] at hlt
    omega
  · -- a place counts from one, and its line feeds are among those of the whole text
    refine (hnone line column).mpr fun offset hzero hlength hplace => ?_
    obtain ⟨hline, hcolumn⟩ := hplace
    rw [lineColumn_of_inside hzero (by omega)] at hline hcolumn
    have hsnd := placeAfter_snd (text.toList.take offset.toNat)
    have hstart := lastLineStart_le (text.toList.take offset.toNat)
    have hfst := placeAfter_fst (text.toList.take offset.toNat)
    have hfeeds := (List.take_sublist offset.toNat text.toList).count_le '\n'
    rw [lineCount_ofText] at hwrong
    omega
  · rw [lineColumn_eq text offset (Nat.le_of_lt hinside)]
    exact offset?_eq_some_iff.mpr ⟨hinside, rfl, rfl⟩

end SyntaxForest.LineIndex
