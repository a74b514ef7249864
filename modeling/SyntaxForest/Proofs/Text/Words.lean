import SyntaxForest.Text.Blank

/-!
# Words

A text has one way to be read as words with blanks between them, and splitting finds it. Writing the
words down again with one space between them gives a text of the same words, which has nothing more
to normalize.

* **`Spells`** — the characters are these words, with blanks around them.
* **`spells_iff`** — splitting a text gives the words that it spells, and no others.
* **`spells_intercalate`**, **`unwrap_unwrap`** — what is spelled by words with single spaces
  between them.
-/

namespace SyntaxForest.Text

/-- Characters without a blank, at least one. -/
structure IsWord (w : String) : Prop where
  ne_empty : w ≠ ""
  solid : ∀ c ∈ w.toList, isBlank c = false

/-- The characters spell the words: they are the words in order, and otherwise blanks. A word ends
where the text does or where a blank follows. -/
inductive Spells : List Char → List String → Prop where
  | nil : Spells [] []
  | blank {c : Char} {rest : List Char} {ws : List String} (hc : isBlank c = true)
      (hrest : Spells rest ws) :
      Spells (c :: rest) ws
  | word {w : String} {rest : List Char} {ws : List String} (hw : IsWord w)
      (hend : ∀ c ∈ rest.head?, isBlank c = true) (hrest : Spells rest ws) :
      Spells (w.toList ++ rest) (w :: ws)

theorem Spells.isWord {cs : List Char} {ws : List String} (h : Spells cs ws) :
    ∀ w ∈ ws, IsWord w := by
  induction h with
  | nil => exact fun _ hw => absurd hw List.not_mem_nil
  | blank _ _ ih => exact ih
  | word hw _ _ ih => exact List.forall_mem_cons.mpr ⟨hw, ih⟩

/-! ## Splitting -/

theorem wordsFrom_append {current w : List Char} (rest : List Char)
    (h : ∀ c ∈ w, isBlank c = false) :
    wordsFrom current (w ++ rest) = wordsFrom (w.reverse ++ current) rest := by
  induction w generalizing current with
  | nil => rfl
  | cons c w ih =>
    obtain ⟨hc, hw⟩ := List.forall_mem_cons.mp h
    rw [List.cons_append, wordsFrom, if_neg (Bool.eq_false_iff.mp hc), ih hw, List.reverse_cons,
      List.append_assoc,
      List.singleton_append]

theorem wordsFrom_of_boundary (current : List Char) {rest : List Char}
    (h : ∀ c ∈ rest.head?, isBlank c = true) :
    wordsFrom current rest = wordOf current ++ wordsFrom [] rest := by
  cases rest with
  | nil => exact (List.append_nil _).symm
  | cons c rest =>
    have hc : isBlank c = true := h c rfl
    rw [wordsFrom, if_pos hc, wordsFrom, if_pos hc]
    rfl

theorem wordOf_reverse {w : String} (h : w ≠ "") : wordOf w.toList.reverse = [w.toList] := by
  have hne : w.toList ≠ [] := fun hnil => h (String.toList_eq_nil_iff.mp hnil)
  rw [wordOf, List.isEmpty_reverse, if_neg (by simpa using hne), List.reverse_reverse]

/-- **Splitting finds the words that a text spells.** -/
theorem Spells.map_wordsFrom {cs : List Char} {ws : List String} (h : Spells cs ws) :
    (wordsFrom [] cs).map String.ofList = ws := by
  induction h with
  | nil => rfl
  | blank hc _ ih =>
    rw [wordsFrom, if_pos hc]
    exact ih
  | word hw hend _ ih =>
    rw [wordsFrom_append _ hw.solid, List.append_nil, wordsFrom_of_boundary _ hend,
      wordOf_reverse hw.ne_empty,
      List.singleton_append, List.map_cons, ih, String.ofList_toList]

theorem Spells.prepend_wordOf {current rest : List Char} {ws : List String}
    (hsolid : ∀ c ∈ current, isBlank c = false) (hend : ∀ c ∈ rest.head?, isBlank c = true)
    (h : Spells rest ws) :
    Spells (current.reverse ++ rest) ((wordOf current).map String.ofList ++ ws) := by
  cases current with
  | nil => exact h
  | cons c before =>
    have hword : IsWord (String.ofList (c :: before).reverse) := by
      refine ⟨fun hempty => ?_, fun d hd => hsolid d ?_⟩
      · simpa using congrArg String.toList hempty
      · rwa [String.toList_ofList, List.mem_reverse] at hd
    have hspells := Spells.word hword hend h
    rwa [String.toList_ofList] at hspells

/-- **A text spells the words that splitting finds.** By induction on the characters, for all that
may have been collected before. -/
theorem spells_wordsFrom (cs : List Char) {current : List Char}
    (h : ∀ c ∈ current, isBlank c = false) :
    Spells (current.reverse ++ cs) ((wordsFrom current cs).map String.ofList) := by
  -- the characters that were read since the last blank are put before the rest again
  induction cs generalizing current with
  | nil =>
    rw [← List.append_nil (List.map _ _)]
    exact Spells.prepend_wordOf h (fun c hc => absurd hc (by simp)) Spells.nil
  | cons c rest ih =>
    rw [wordsFrom]
    split
    -- a blank ends the word that was collected, if there is one
    · rename_i hc
      have hrest : Spells rest ((wordsFrom [] rest).map String.ofList) :=
        ih fun d hd => absurd hd List.not_mem_nil
      have hend : ∀ d ∈ (c :: rest).head?, isBlank d = true := by
        rintro d ⟨⟩
        exact hc
      rw [List.map_append]
      exact Spells.prepend_wordOf h hend (Spells.blank hc hrest)
    · rename_i hc
      have hlonger := ih (List.forall_mem_cons.mpr ⟨Bool.eq_false_iff.mpr hc, h⟩)
      rwa [List.reverse_cons, List.append_assoc, List.singleton_append] at hlonger

theorem spells_words (s : String) : Spells s.toList (words s) :=
  spells_wordsFrom s.toList fun _ hc => absurd hc List.not_mem_nil

/-- **There is one way to read a text as words, and splitting finds it.** -/
theorem spells_iff {s : String} {ws : List String} : Spells s.toList ws ↔ words s = ws := by
  constructor
  · exact Spells.map_wordsFrom
  · rintro rfl
    exact spells_words s

/-! ## Writing down -/

theorem toList_intercalate_cons (w v : String) (ws : List String) :
    (" ".intercalate (w :: v :: ws)).toList
      = w.toList ++ ' ' :: (" ".intercalate (v :: ws)).toList := by
  rw [String.intercalate_cons_cons, String.toList_append, String.toList_append, List.append_assoc]
  rfl

theorem spells_intercalate {ws : List String} (h : ∀ w ∈ ws, IsWord w) :
    Spells (" ".intercalate ws).toList ws := by
  induction ws with
  | nil =>
    rw [String.intercalate_nil]
    exact Spells.nil
  | cons w rest ih =>
    obtain ⟨hw, hrest⟩ := List.forall_mem_cons.mp h
    -- after the last word there is no space
    cases rest with
    | nil =>
      rw [String.intercalate_singleton, ← List.append_nil w.toList]
      exact Spells.word hw (fun c hc => absurd hc (by simp)) Spells.nil
    | cons v rest =>
      rw [toList_intercalate_cons]
      refine Spells.word hw ?_ (Spells.blank (by decide) (ih hrest))
      rintro c ⟨⟩
      decide

theorem words_unwrap (s : String) : words (unwrap s) = words s :=
  spells_iff.mp (spells_intercalate (spells_words s).isWord)

/-- **What is normalized has nothing more to normalize.** -/
theorem unwrap_unwrap (s : String) : unwrap (unwrap s) = unwrap s := by
  rw [unwrap, words_unwrap, unwrap]

theorem unwrap_eq_empty_iff (s : String) : unwrap s = "" ↔ words s = [] := by
  constructor
  · intro h
    rw [← words_unwrap, h]
    rfl
  · intro h
    rw [unwrap, h, String.intercalate_nil]

/-! ## The ends of what is written down -/

theorem head_intercalate {ws : List String} (h : ∀ w ∈ ws, IsWord w) :
    ∀ c ∈ (" ".intercalate ws).toList.head?, isBlank c = false := by
  intro c hc
  cases ws with
  | nil => simp at hc
  | cons w rest =>
    have hw : IsWord w := h w List.mem_cons_self
    have hne : w.toList ≠ [] := fun hnil => hw.ne_empty (String.toList_eq_nil_iff.mp hnil)
    refine hw.solid c (List.mem_of_mem_head? ?_)
    cases rest with
    | nil => rwa [String.intercalate_singleton] at hc
    | cons v rest =>
      rwa [toList_intercalate_cons, List.head?_append, List.head?_eq_some_head hne, Option.some_or,
        ← List.head?_eq_some_head hne] at hc

/-- What is written down ends with no blank. -/
theorem getLast_intercalate {ws : List String} (h : ∀ w ∈ ws, IsWord w) :
    ∀ c ∈ (" ".intercalate ws).toList.getLast?, isBlank c = false := by
  intro c hc
  induction ws with
  | nil => simp at hc
  | cons w rest ih =>
    obtain ⟨hw, hrest⟩ := List.forall_mem_cons.mp h
    cases rest with
    | nil =>
      rw [String.intercalate_singleton] at hc
      exact hw.solid c (List.mem_of_getLast? hc)
    | cons v rest =>
      -- what follows the space is not empty, for it spells a word
      have hne : (" ".intercalate (v :: rest)).toList ≠ [] := by
        intro hnil
        have hspells := spells_iff.mp (spells_intercalate hrest)
        rw [String.toList_eq_nil_iff.mp hnil] at hspells
        cases hspells
      rw [toList_intercalate_cons, List.append_cons, List.getLast?_append,
        List.getLast?_eq_some_getLast hne,
        Option.some_or, ← List.getLast?_eq_some_getLast hne] at hc
      exact ih hrest hc

end SyntaxForest.Text
