import Mathlib.Data.List.Induction
import Mathlib.Data.List.TakeWhile
import SyntaxForest.Source.Position

/-!
# Lines and columns

The line index of a text against reading the text character by character.

* **`bisect_eq`** — halving finds where a table is cut, if all entries before the cut are on one
  side of the mark and all after it on the other.
* **`placeAfter`** — the line and column that reading some characters leads to.
* **`lineColumn_eq`** — the index places an offset where reading the characters before it leads.
* **`offset?_eq_some_iff`** — finding an offset undoes placing it, so no two characters have one
  place.
* **`placeAfter_take_le`** — places grow with the offset.
-/

namespace SyntaxForest

/-! ## Halving -/

/-- The mark lies between the first `count` entries of a table and the others. -/
structure Cut (table : Array Nat) (isPast : Nat → Bool) (count : Nat) : Prop where
  before : ∀ i < count, isPast (table.getD i 0) = false
  after : ∀ i, count ≤ i → i < table.size → isPast (table.getD i 0) = true

/-- Every halving keeps the cut between the bounds, so they meet there. -/
theorem bisect_eq {table : Array Nat} {isPast : Nat → Bool} {count low high : Nat}
    (hcut : Cut table isPast count) (hlow : low ≤ count) (hhigh : count ≤ high)
    (hsize : high ≤ table.size) :
    bisect table isPast low high = count := by
  fun_induction bisect table isPast low high with
  | case1 low high hlt middle hpast ih =>
    -- the middle entry is past the mark, so the cut is not behind it
    refine ih hlow (Nat.le_of_not_lt fun hmiddle => ?_) (by omega)
    rw [hcut.before middle hmiddle] at hpast
    cases hpast
  -- the middle entry is not past the mark, so the cut is behind it
  | case2 low high hlt middle hpast ih =>
    refine ih (Nat.le_of_not_lt fun hmiddle => ?_) hhigh hsize
    exact hpast (hcut.after middle (by omega) (by omega))
  | case3 low high hmet => omega

theorem cut_append {before after : List Nat} {isPast : Nat → Bool}
    (hbefore : ∀ start ∈ before, isPast start = false)
    (hafter : ∀ start ∈ after, isPast start = true) :
    Cut (before ++ after).toArray isPast before.length where
  before i hi := by
    simp only [Array.getD_eq_getD_getElem?, List.getElem?_toArray, List.getElem?_append_left hi,
      List.getElem?_eq_getElem hi]
    exact hbefore _ (List.getElem_mem hi)
  after i hle hlt := by
    simp only [List.size_toArray, List.length_append] at hlt
    have hi : i - before.length < after.length := by omega
    simp only [Array.getD_eq_getD_getElem?, List.getElem?_toArray, List.getElem?_append_right hle,
      List.getElem?_eq_getElem hi]
    exact hafter _ (List.getElem_mem hi)

/-! ## The beginnings of lines -/

theorem startsAfterFeeds_append (base : Nat) (xs ys : List Char) :
    startsAfterFeeds base (xs ++ ys)
      = startsAfterFeeds base xs ++ startsAfterFeeds (base + xs.length) ys := by
  induction xs generalizing base with
  | nil => rfl
  | cons c rest ih =>
    have hbase : base + (c :: rest).length = base + 1 + rest.length := by
      rw [List.length_cons]
      omega
    rw [List.cons_append, startsAfterFeeds, startsAfterFeeds, hbase, ih]
    split <;> rfl

theorem mem_startsAfterFeeds {base start : Nat} {cs : List Char}
    (h : start ∈ startsAfterFeeds base cs) : base < start ∧ start ≤ base + cs.length := by
  induction cs generalizing base with
  | nil => cases h
  | cons c rest ih =>
    rw [List.length_cons]
    have hlater : start ∈ startsAfterFeeds (base + 1) rest →
        base < start ∧ start ≤ base + (rest.length + 1) := by
      intro hmem
      have := ih hmem
      omega
    unfold startsAfterFeeds at h
    split at h
    · rcases List.mem_cons.mp h with rfl | hmem
      · omega
      · exact hlater hmem
    · exact hlater h

theorem pairwise_startsAfterFeeds (base : Nat) (cs : List Char) :
    (startsAfterFeeds base cs).Pairwise (· < ·) := by
  induction cs generalizing base with
  | nil => exact .nil
  | cons c rest ih =>
    unfold startsAfterFeeds
    split
    · exact .cons (fun start hmem => (mem_startsAfterFeeds hmem).1) (ih _)
    · exact ih _

namespace LineIndex

/-- The place after one more character. -/
def advance (place : Nat × Nat) (c : Char) : Nat × Nat :=
  if c = '\n' then (place.1 + 1, 1) else (place.1, place.2 + 1)

/-- The line and column that reading the characters leads to, from the beginning of a text. -/
def placeAfter (cs : List Char) : Nat × Nat := cs.foldl advance (1, 1)

/-- The first place is before the second or the same: on an earlier line, or on its line and no
further right. -/
def PlaceLE (p q : Nat × Nat) : Prop := p.1 < q.1 ∨ p.1 = q.1 ∧ p.2 ≤ q.2

theorem placeAfter_snoc (cs : List Char) (c : Char) :
    placeAfter (cs ++ [c]) = advance (placeAfter cs) c := by
  rw [placeAfter, List.foldl_append]
  rfl

theorem getLastD_starts_le (cs : List Char) :
    (0 :: startsAfterFeeds 0 cs).getLastD 0 ≤ cs.length := by
  have hmem : (0 :: startsAfterFeeds 0 cs).getLastD 0 ∈ 0 :: startsAfterFeeds 0 cs := by
    rw [List.getLastD_eq_getLast?, List.getLast?_eq_some_getLast (List.cons_ne_nil _ _)]
    exact List.getLast_mem _
  rcases List.mem_cons.mp hmem with hzero | hfeed
  · omega
  · have := mem_startsAfterFeeds hfeed
    omega

/-- What the index knows of the lines that begin in the characters read so far is the place itself.
By induction from the back, one more character at a time. -/
theorem placeAfter_eq (cs : List Char) :
    placeAfter cs = ((0 :: startsAfterFeeds 0 cs).length,
      cs.length - (0 :: startsAfterFeeds 0 cs).getLastD 0 + 1) := by
  induction cs using List.reverseRecOn with
  | nil => rfl
  | append_singleton cs c ih =>
    have hsnoc : startsAfterFeeds 0 (cs ++ [c])
        = startsAfterFeeds 0 cs ++ if c = '\n' then [cs.length + 1] else [] := by
      rw [startsAfterFeeds_append]
      unfold startsAfterFeeds startsAfterFeeds
      simp only [Nat.zero_add]
    have hlast := getLastD_starts_le cs
    rw [placeAfter_snoc, ih, hsnoc, advance]
    -- a line feed begins a line right after it, any other character makes the last line longer
    by_cases hc : c = '\n'
    · simp only [hc, if_true, List.length_append, List.length_cons, List.length_nil,
        ← List.cons_append, List.getLastD_concat]
      simp
    · simp only [hc, if_false, List.append_nil, List.length_append, List.length_cons,
        List.length_nil]
      rw [Prod.mk.injEq]
      omega

/-! ## Placing an offset -/

theorem starts_split (cs : List Char) {offset : Nat} (h : offset ≤ cs.length) :
    startsAfterFeeds 0 cs
      = startsAfterFeeds 0 (cs.take offset) ++ startsAfterFeeds offset (cs.drop offset) := by
  have hlength : (cs.take offset).length = offset := List.length_take_of_le h
  conv_lhs => rw [← List.take_append_drop offset cs, startsAfterFeeds_append, hlength, Nat.zero_add]

theorem takeWhile_le_append {offset : Nat} {before after : List Nat}
    (hbefore : ∀ start ∈ before, start ≤ offset) (hafter : ∀ start ∈ after.head?, offset < start) :
    (before ++ after).takeWhile (· ≤ offset) = before := by
  have hnone : after.takeWhile (· ≤ offset) = [] := by
    cases after with
    | nil => rfl
    | cons next rest => exact List.takeWhile_cons_of_neg (by simpa using hafter next rfl)
  rw [List.takeWhile_append_of_pos (fun start hmem => decide_eq_true (hbefore start hmem)), hnone,
    List.append_nil]

theorem le_of_mem_starts_take {cs : List Char} {start offset : Nat}
    (h : start ∈ 0 :: startsAfterFeeds 0 (cs.take offset)) : start ≤ offset := by
  rcases List.mem_cons.mp h with rfl | hfeed
  · exact Nat.zero_le _
  · have := mem_startsAfterFeeds hfeed
    have := List.length_take_le offset cs
    omega

theorem takeWhile_starts (cs : List Char) (offset : Nat) (h : offset ≤ cs.length) :
    (0 :: startsAfterFeeds 0 cs).takeWhile (· ≤ offset) = 0 :: startsAfterFeeds
      0 (cs.take offset) := by
  rw [starts_split cs h, ← List.cons_append]
  apply takeWhile_le_append
  · exact fun start hmem => le_of_mem_starts_take hmem
  · intro start hmem
    exact (mem_startsAfterFeeds (List.mem_of_mem_head? hmem)).1

/-- The line of an offset and where it begins are those of the last line that begins in the
characters before it. -/
theorem lineUpTo_ofChars (cs : List Char) (offset : Nat) (h : offset ≤ cs.length) :
    (ofChars cs).lineUpTo (offset < ·) = (0 :: startsAfterFeeds 0 (cs.take offset)).length
      ∧ (ofChars cs).lineStart ((ofChars cs).lineUpTo (offset < ·))
          = (0 :: startsAfterFeeds 0 (cs.take offset)).getLastD 0 := by
  have hstarts : (ofChars cs).starts
      = ((0 :: startsAfterFeeds 0 (cs.take offset)) ++ startsAfterFeeds offset
        (cs.drop offset)).toArray := by
    rw [List.cons_append, ← starts_split cs h]
    rfl
  -- the lines of the characters before the offset and those of the others meet at the cut
  have hcut : Cut (ofChars cs).starts (offset < ·)
      (0 :: startsAfterFeeds 0 (cs.take offset)).length := by
    rw [hstarts]
    refine cut_append (fun start hmem => ?_) fun start hmem => ?_
    · exact decide_eq_false (Nat.not_lt.mpr (le_of_mem_starts_take hmem))
    · exact decide_eq_true (mem_startsAfterFeeds hmem).1
  have hline : (ofChars cs).lineUpTo (offset < ·)
      = (0 :: startsAfterFeeds 0 (cs.take offset)).length := by
    refine bisect_eq hcut (Nat.zero_le _) ?_ (Nat.le_refl _)
    rw [lineCount, hstarts, List.size_toArray, List.length_append]
    omega
  refine ⟨hline, ?_⟩
  rw [hline, lineStart, hstarts, Array.getD_eq_getD_getElem?, List.getElem?_toArray,
    List.getElem?_append_left (by simp), List.getLastD_eq_getLast?, List.getLast?_eq_getElem?]

/-- **The index places an offset where reading the characters before it leads.** -/
theorem lineColumn_eq (text : String) (offset : Nat) (h : offset ≤ text.length) :
    (ofText text).lineColumn offset = placeAfter (text.toList.take offset) := by
  have hlength : text.length = text.toList.length := String.length_toList.symm
  rw [hlength] at h
  obtain ⟨hline, hstart⟩ := lineUpTo_ofChars text.toList offset h
  have hinside : ¬ ((offset : Int) < 0 || Int.ofNat (ofText text).length < (offset : Int))
      = true := by
    show ¬ ((offset : Int) < 0 || Int.ofNat text.toList.length < (offset : Int)) = true
    simp
    omega
  rw [placeAfter_eq, List.length_take_of_le h, lineColumn, if_neg hinside]
  show ((ofChars text.toList).lineUpTo (offset < ·),
    offset - (ofChars text.toList).lineStart ((ofChars text.toList).lineUpTo (offset < ·)) + 1) = _
  rw [hstart, hline]

theorem PlaceLE.trans {p q r : Nat × Nat} (hpq : PlaceLE p q) (hqr : PlaceLE q r) :
    PlaceLE p r := by
  unfold PlaceLE at *
  omega

theorem placeLE_foldl (place : Nat × Nat) (cs : List Char) :
    PlaceLE place (cs.foldl advance place) := by
  induction cs generalizing place with
  | nil => exact Or.inr ⟨rfl, Nat.le_refl _⟩
  | cons c rest ih =>
    have hstep : PlaceLE place (advance place c) := by
      unfold PlaceLE advance
      split
      · exact Or.inl (Nat.lt_succ_self _)
      · exact Or.inr ⟨rfl, Nat.le_succ _⟩
    exact hstep.trans (ih _)

theorem placeAfter_take_le (cs : List Char) {i j : Nat} (h : i ≤ j) :
    PlaceLE (placeAfter (cs.take i)) (placeAfter (cs.take j)) := by
  have hsplit : cs.take j = cs.take i ++ (cs.take j).drop i := by
    have := (List.take_append_drop i (cs.take j)).symm
    rwa [List.take_take, Nat.min_eq_left h] at this
  rw [hsplit, placeAfter, placeAfter, List.foldl_append]
  exact placeLE_foldl _ _

theorem lineColumn_le (text : String) {i j : Nat} (hij : i ≤ j) (hj : j ≤ text.length) :
    PlaceLE ((ofText text).lineColumn i) ((ofText text).lineColumn j) := by
  rw [lineColumn_eq text i (Nat.le_trans hij hj), lineColumn_eq text j hj]
  exact placeAfter_take_le _ hij

/-! ## Finding an offset -/

/-- An offset found by line and column, with the line that begins at `start` and the lines around
it. The table is split there, so that the line, the one after it and the column can be told
apart. -/
theorem offset?_eq_some {index : LineIndex} {line column : Int} {offset : Nat} :
    index.offset? line column = some offset
      ↔ ∃ earlier start later, index.starts.toList = earlier ++ start :: later
        ∧ line = earlier.length + 1 ∧ column = (offset - start : Nat) + 1
        ∧ start ≤ offset ∧ offset < later.headD index.length := by
  -- the line after this one is the first of the later ones
  have hnext : ∀ {earlier later : List Nat} {start : Nat},
      index.starts.toList = earlier ++ start :: later →
      index.starts.getD (earlier.length + 1) index.length = later.headD index.length := by
    intro earlier later start hstarts
    rw [Array.getD_eq_getD_getElem?, ← Array.getElem?_toList, hstarts,
      List.getElem?_append_right (by omega),
      show earlier.length + 1 - earlier.length = 1 by
        omega, List.getElem?_cons_succ, List.headD_eq_head?_getD,
      List.head?_eq_getElem?]
  unfold offset?
  constructor
  · intro h
    -- lines and columns count from one, and there has to be such a line and such a column on it
    split at h
    · cases h
    · rename_i hpositive
      simp only [Bool.or_eq_true, decide_eq_true_eq, not_or, Int.not_lt] at hpositive
      split at h
      · cases h
      · rename_i start hstart
        simp only at h
        split at h
        · rename_i hlt
          rw [Option.some.injEq] at h
          rw [← Array.getElem?_toList, List.getElem?_eq_some_iff] at hstart
          obtain ⟨hline, rfl⟩ := hstart
          have hstarts := (List.take_append_drop (line.toNat - 1) index.starts.toList).symm
          rw [List.drop_eq_getElem_cons hline] at hstarts
          have hearlier : (index.starts.toList.take (line.toNat - 1)).length = line.toNat - 1 :=
            List.length_take_of_le (Nat.le_of_lt hline)
          refine ⟨_, _, _, hstarts, by omega, by omega, by omega, ?_⟩
          rw [← hnext hstarts, hearlier, show line.toNat - 1 + 1 = line.toNat by omega]
          omega
        · cases h
  · rintro ⟨earlier, start, later, hstarts, hline, hcolumn, hle, hlt⟩
    have hstart : index.starts[line.toNat - 1]? = some start := by
      rw [← Array.getElem?_toList, hstarts, show line.toNat - 1 = earlier.length by omega,
        List.getElem?_append_right (Nat.le_refl _), Nat.sub_self, List.getElem?_cons_zero]
    have hoffset : start + column.toNat - 1 = offset := by omega
    rw [← hnext hstarts, show earlier.length + 1 = line.toNat by omega] at hlt
    rw [if_neg (by simp; omega), hstart]
    simp only [hoffset]
    rw [if_pos hlt]

section Split

variable {cs : List Char} {earlier later : List Nat} {start offset : Nat}
  (hsplit : 0 :: startsAfterFeeds 0 cs = earlier ++ start :: later)
  (hlt : offset < later.headD cs.length)

include hsplit hlt

theorem lt_length_of_split : offset < cs.length := by
  cases later with
  | nil => exact hlt
  | cons next rest =>
    have hmem : next ∈ 0 :: startsAfterFeeds 0 cs := hsplit ▸ by simp
    rcases List.mem_cons.mp hmem with rfl | hfeed
    · exact absurd hlt (Nat.not_lt_zero _)
    · have := mem_startsAfterFeeds hfeed
      simp only [List.headD_cons] at hlt
      omega

theorem starts_take_of_split (hle : start ≤ offset) :
    0 :: startsAfterFeeds 0 (cs.take offset) = earlier ++ [start] := by
  have hinside := lt_length_of_split hsplit hlt
  -- lines begin one after another, so the earlier ones begin before this one
  have hsorted : (earlier ++ start :: later).Pairwise (· < ·) := by
    rw [← hsplit]
    exact .cons (fun _ hmem => (mem_startsAfterFeeds hmem).1) (pairwise_startsAfterFeeds 0 cs)
  rw [← takeWhile_starts cs offset (Nat.le_of_lt hinside), hsplit,
    show earlier ++ start :: later = (earlier ++ [start]) ++ later by simp]
  apply takeWhile_le_append
  · intro s hs
    rcases List.mem_append.mp hs with hearlier | hlast
    · have := (List.pairwise_append.mp hsorted).2.2 s hearlier start List.mem_cons_self
      omega
    · exact List.mem_singleton.mp hlast ▸ hle
  · intro s hs
    rwa [List.headD_eq_head?_getD, Option.mem_def.mp hs] at hlt

end Split

/-- **Finding an offset undoes placing it.** Both directions go through the split of the table at
the line of the offset. -/
theorem offset?_eq_some_iff {text : String} {line column : Int} {offset : Nat} :
    (ofText text).offset? line column = some offset
      ↔ offset < text.length ∧ line = (placeAfter (text.toList.take offset)).1
        ∧ column = (placeAfter (text.toList.take offset)).2 := by
  obtain ⟨cs, rfl⟩ : ∃ cs, text = String.ofList cs := ⟨text.toList, by simp⟩
  have hstarts : (ofText (String.ofList cs)).starts.toList = 0 :: startsAfterFeeds 0 cs := by
    simp [ofText, ofChars]
  have hlength : (ofText (String.ofList cs)).length = cs.length := by simp [ofText, ofChars]
  rw [offset?_eq_some, hstarts, hlength, String.length_ofList, String.toList_ofList, placeAfter_eq]
  constructor
  · rintro ⟨earlier, start, later, hsplit, hline, hcolumn, hle, hlt⟩
    have hinside := lt_length_of_split hsplit hlt
    rw [starts_take_of_split hsplit hlt hle, List.getLastD_concat, List.length_append,
      List.length_take_of_le (Nat.le_of_lt hinside)]
    exact ⟨hinside, by simpa using hline, by simpa using hcolumn⟩
  · rintro ⟨hinside, hline, hcolumn⟩
    have htake : (cs.take offset).length = offset := List.length_take_of_le (Nat.le_of_lt hinside)
    have hlast := getLastD_starts_le (cs.take offset)
    -- the line of the offset is the last one that begins before it
    obtain ⟨earlier, start, hbefore⟩ :
        ∃ earlier start, 0 :: startsAfterFeeds 0 (cs.take offset) = earlier ++ [start] := by
      rcases List.eq_nil_or_concat (0 :: startsAfterFeeds 0 (cs.take offset)) with hnil | hconcat
      · cases hnil
      · simpa using hconcat
    rw [hbefore, List.getLastD_concat, htake] at hcolumn hlast
    rw [hbefore, List.length_append] at hline
    refine ⟨earlier, start, startsAfterFeeds offset (cs.drop offset), ?_, by simpa using hline,
      by simpa using hcolumn, hlast, ?_⟩
    · rw [starts_split cs hinside.le, ← List.cons_append, hbefore]
      simp
    · -- the next line begins after the offset, and so does the end of the text
      cases hlater : startsAfterFeeds offset (cs.drop offset) with
      | nil => exact hinside
      | cons next rest =>
        have hmem : next ∈ startsAfterFeeds offset (cs.drop offset) := hlater ▸ List.mem_cons_self
        exact (mem_startsAfterFeeds hmem).1

/-! ## Positions given as data -/

/-- Placing an integer that is given as data is placing the integer. -/
theorem lineColumnGiven_int (text : String) (offset : Int) :
    (ofText text).lineColumnGiven (.int offset)
      = .ok (((ofText text).lineColumn offset).1, .int ((ofText text).lineColumn offset).2) := by
  show Except.ok ((ofText text).lineColumnAt (.int offset)) = _
  unfold lineColumnAt lineColumn
  show Except.ok (if (decide (offset < 0) || decide (Int.ofNat (ofText text).length < offset))
    = true then _ else _) = _
  split
  · rfl
  · rename_i hinside
    simp only [Bool.or_eq_true, decide_eq_true_eq, not_or, Int.not_lt] at hinside
    -- numbers are compared as data there, and as natural numbers here
    have hsame : (fun start : Nat => (Number.int offset).isBelow (Int.ofNat start))
        = fun start => decide (offset.toNat < start) := by
      funext start
      show decide (offset < Int.ofNat start) = _
      exact decide_eq_decide.mpr (by simp only [Int.ofNat_eq_natCast]; omega)
    have hlength : offset.toNat ≤ text.toList.length := by
      have : offset ≤ (text.toList.length : Int) := hinside.2
      omega
    have hlast : (ofText text).lineStart ((ofText text).lineUpTo (offset.toNat < ·))
        ≤ offset.toNat := by
      have hle := getLastD_starts_le (text.toList.take offset.toNat)
      rw [List.length_take_of_le hlength] at hle
      exact (lineUpTo_ofChars text.toList offset.toNat hlength).2 ▸ hle
    simp only [hsame]
    show Except.ok (_, Number.int _) = _
    simp only [Int.ofNat_eq_natCast]
    congr 3
    omega

theorem reaches_int (m n : Nat) : (Number.int m).reaches (Int.ofNat n) = decide (n ≤ m) := by
  show (decide (Int.ofNat n < (m : Int)) || decide (some (m : Int) = some (Int.ofNat n))) = _
  rw [← Bool.decide_or]
  exact decide_eq_decide.mpr (by simp only [Int.ofNat_eq_natCast, Option.some.injEq]; omega)

/-- Finding a place whose line and column are integers given as data. The two ask the same
questions, but not in the same order. -/
theorem offsetGiven_int (index : LineIndex) (line column : Int) :
    index.offsetGiven (.int line) (.int column)
      = .ok ((index.offset? line column).map fun offset : Nat => .int offset) := by
  unfold offsetGiven offset?
  show (if decide (line < 1) = true then _ else if decide (column < 1) = true then _ else
    if decide (Int.ofNat index.lineCount < line) = true then _ else _) = _
  -- each check on its own, as the one side makes them one after another
  by_cases hline : line < 1
  · simp [hline]
    rfl
  by_cases hcolumn : column < 1
  · simp [hline, hcolumn]
    rfl
  by_cases hcount : Int.ofNat index.lineCount < line
  · -- no line has that number
    have hnone : index.starts[line.toNat - 1]? = none := by
      simp only [lineCount, Int.ofNat_eq_natCast] at hcount
      exact Array.getElem?_eq_none (by omega)
    simp [hline, hcolumn, hnone]
    rfl
  simp only [hline, hcolumn, hcount, decide_false, Bool.or_self, Bool.false_eq_true, if_false]
  cases index.starts[line.toNat - 1]? with
  | none => rfl
  | some start =>
    have hoffset : column + Int.ofNat start + -1 = ((start + column.toNat - 1 : Nat) : Int) := by
      simp only [Int.ofNat_eq_natCast]
      omega
    show Except.ok (if (Number.int (column + Int.ofNat start + -1)).reaches
      (Int.ofNat (index.starts.getD line.toNat index.length)) = true then none
        else some (Number.int (column + Int.ofNat start + -1))) = _
    rw [hoffset, reaches_int]
    by_cases hlt : start + column.toNat - 1 < index.starts.getD line.toNat index.length
    · simp only [decide_eq_true_eq, if_neg (Nat.not_le.mpr hlt), if_pos hlt, Option.map_some]
    · simp only [decide_eq_true_eq, if_pos (Nat.not_lt.mp hlt), if_neg hlt, Option.map_none]

end LineIndex

end SyntaxForest
