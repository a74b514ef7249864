import Mathlib.Data.List.Basic
import Mathlib.Data.List.Chain
import SyntaxForest.Proofs.Text.Slice
import SyntaxForest.Source.ByteOffsets

/-!
# Bytes and characters

The character offset of a byte offset grows with it, reaches the length of the text at its last
byte, and on a boundary between characters counts the characters before it, whether the text needs a
table or not.

* **`toChar_mono`**, **`toChar_le`** — for all byte offsets.
* **`toChar_byteSize`** — on the boundaries.
* **`toChar_tableFrom_le`**, **`toChar_tableFrom_of_isAscii`** — an offset that is looked up stays
  within the text, and in an ASCII text only one past the end is changed by it.
* **`toUTF8_slice`** — the characters between two boundaries are encoded by the bytes between them.
* **`table_tabulates`** — which texts have a table, and what its entries are.
-/

namespace SyntaxForest.ByteOffsets

/-! ## Sizes -/

theorem byteSize_nil : byteSize [] = 0 := by simp [byteSize]

theorem byteSize_cons (c : Char) (cs : List Char) :
    byteSize (c :: cs) = c.utf8Size + byteSize cs := by
  rw [byteSize, String.ofList_cons, String.utf8ByteSize_append, String.utf8ByteSize_singleton,
    byteSize]

theorem byteSize_append (before after : List Char) :
    byteSize (before ++ after) = byteSize before + byteSize after := by
  rw [byteSize, String.ofList_append, String.utf8ByteSize_append, byteSize, byteSize]

theorem byteSize_toList (text : String) : byteSize text.toList = text.toUTF8.size := by
  rw [byteSize, String.ofList_toList, ← String.size_toByteArray, String.toUTF8_eq_toByteArray]

theorem length_le_byteSize (cs : List Char) : cs.length ≤ byteSize cs := by
  induction cs with
  | nil => exact Nat.zero_le _
  | cons c rest ih =>
    have hone := c.utf8Size_pos
    rw [byteSize_cons, List.length_cons]
    omega

/-- Every character is one of the first 128. -/
def IsAscii (cs : List Char) : Prop := ∀ c ∈ cs, c.toNat < 128

theorem utf8Size_eq_one_iff (c : Char) : c.utf8Size = 1 ↔ c.toNat < 128 := by
  rw [Char.utf8Size_eq_one_iff, UInt32.le_iff_toNat_le]
  exact Nat.lt_succ_iff.symm

theorem byteSize_eq_length_iff (cs : List Char) : byteSize cs = cs.length ↔ IsAscii cs := by
  induction cs with
  | nil => exact ⟨fun _ _ hc => absurd hc List.not_mem_nil, fun _ => byteSize_nil⟩
  | cons c rest ih =>
    have hone := c.utf8Size_pos
    have hrest := length_le_byteSize rest
    rw [IsAscii, List.forall_mem_cons, ← utf8Size_eq_one_iff, ← IsAscii, ← ih,
      byteSize_cons, List.length_cons]
    omega

/-! ## The table -/

theorem length_tableFrom (index : Nat) (cs : List Char) :
    (tableFrom index cs).length = byteSize cs + 1 := by
  induction cs generalizing index with
  | nil => rw [byteSize_nil, tableFrom, List.length_singleton]
  | cons c rest ih =>
    rw [tableFrom, List.length_append, List.length_replicate, ih, byteSize_cons, Nat.add_assoc]

theorem le_of_mem_tableFrom {index entry : Nat} {cs : List Char} (h : entry ∈ tableFrom index cs) :
    index ≤ entry := by
  induction cs generalizing index with
  | nil => exact Nat.le_of_eq (List.mem_singleton.mp h).symm
  | cons c rest ih =>
    rcases List.mem_append.mp h with hsame | hlater
    · exact Nat.le_of_eq (List.mem_replicate.mp hsame).2.symm
    · exact Nat.le_trans (Nat.le_succ _) (ih hlater)

theorem pairwise_tableFrom (index : Nat) (cs : List Char) :
    (tableFrom index cs).Pairwise (· ≤ ·) := by
  induction cs generalizing index with
  | nil => exact List.pairwise_singleton _ _
  | cons c rest ih =>
    refine List.pairwise_append.mpr ⟨List.pairwise_replicate.mpr (Or.inr (Nat.le_refl _)), ih _, ?_⟩
    -- between the entries of the first character and those of the others
    intro entry hentry later hlater
    have := (List.mem_replicate.mp hentry).2
    have := le_of_mem_tableFrom hlater
    omega

theorem head?_tableFrom (index : Nat) (cs : List Char) :
    (tableFrom index cs).head? = some index := by
  cases cs with
  | nil => rfl
  | cons c rest =>
    rw [tableFrom, List.head?_append, List.head?_replicate, if_neg (Nat.ne_of_gt c.utf8Size_pos),
      Option.some_or]

theorem isChain_tableFrom (index : Nat) (cs : List Char) :
    (tableFrom index cs).IsChain (fun here next => next ≤ here + 1) := by
  induction cs generalizing index with
  | nil => exact List.IsChain.singleton _
  | cons c rest ih =>
    refine List.isChain_append.mpr ⟨List.isChain_replicate_of_rel _ (Nat.le_succ _), ih _, ?_⟩
    intro here hhere next hnext
    -- only where two characters meet do the entries go up
    have hsame := (List.mem_replicate.mp (List.mem_of_getLast? hhere)).2
    rw [head?_tableFrom, Option.mem_some_iff] at hnext
    omega

theorem drop_tableFrom (index : Nat) (before after : List Char) :
    (tableFrom index (before ++ after)).drop (byteSize before) = tableFrom (index + before.length)
      after := by
  induction before generalizing index with
  | nil => rw [byteSize_nil, List.drop_zero, List.nil_append, List.length_nil, Nat.add_zero]
  | cons c rest ih =>
    rw [List.cons_append, tableFrom, byteSize_cons, ← List.drop_drop,
      List.drop_left' List.length_replicate, ih,
      List.length_cons, Nat.add_assoc, Nat.add_comm 1]

theorem getElem?_tableFrom (index : Nat) (before after : List Char) :
    (tableFrom index (before ++ after))[byteSize before]? = some (index + before.length) := by
  rw [← List.head?_drop, drop_tableFrom, head?_tableFrom]

theorem getElem?_tableFrom_of_lt (index : Nat) (before after : List Char) {c : Char} {byte : Nat}
    (hstart : byteSize before ≤ byte) (hend : byte < byteSize before + c.utf8Size) :
    (tableFrom index (before ++ c :: after))[byte]? = some (index + before.length) := by
  obtain ⟨inner, rfl⟩ := Nat.exists_eq_add_of_le hstart
  have hinner : inner < c.utf8Size := by omega
  have hlength : inner < (List.replicate c.utf8Size (index + before.length)).length := by
    rwa [List.length_replicate]
  rw [← List.getElem?_drop, drop_tableFrom, tableFrom, List.getElem?_append_left hlength,
    List.getElem?_replicate, if_pos hinner]

theorem exists_of_lt_byteSize {cs : List Char} {byte : Nat} (h : byte < byteSize cs) :
    ∃ before c after, cs = before ++ c :: after ∧ byteSize before ≤ byte
      ∧ byte < byteSize before + c.utf8Size := by
  induction cs generalizing byte with
  | nil =>
    rw [byteSize_nil] at h
    exact absurd h (Nat.not_lt_zero _)
  | cons c rest ih =>
    rw [byteSize_cons] at h
    rcases Nat.lt_or_ge byte c.utf8Size with hfirst | hlater
    · have hnone := byteSize_nil
      exact ⟨[], c, rest, rfl, by omega, by omega⟩
    · have hrest : byte - c.utf8Size < byteSize rest := by omega
      obtain ⟨before, d, after, rfl, hstart, hend⟩ := ih hrest
      have hbefore := byteSize_cons c before
      exact ⟨c :: before, d, after, rfl, by omega, by omega⟩

/-! ## Character offsets -/

theorem toChar_tableFrom_mono (cs : List Char) {a b : Nat} (h : a ≤ b) :
    toChar (some (tableFrom 0 cs)) a ≤ toChar (some (tableFrom 0 cs)) b := by
  have hlength := length_tableFrom 0 cs
  have hb : min b (byteSize cs) < (tableFrom 0 cs).length := by omega
  have ha : min a (byteSize cs) < (tableFrom 0 cs).length := by omega
  simp only [toChar, hlength, Nat.add_sub_cancel, List.getD_eq_getElem?_getD,
    List.getElem?_eq_getElem ha, List.getElem?_eq_getElem hb, Option.getD_some]
  -- the entries of the table never fall
  rcases Nat.lt_or_eq_of_le (show min a (byteSize cs) ≤ min b (byteSize cs) by omega) with hlt | heq
  · exact List.pairwise_iff_getElem.mp (pairwise_tableFrom 0 cs) _ _ ha hb hlt
  · simp only [heq, Nat.le_refl]

theorem toChar_tableFrom_byteSize (before after : List Char) :
    toChar (some (tableFrom 0 (before ++ after))) (byteSize before) = before.length := by
  have hentry := getElem?_tableFrom 0 before after
  obtain ⟨hlt, -⟩ := List.getElem?_eq_some_iff.mp hentry
  simp only [toChar]
  rw [Nat.min_eq_left (Nat.le_sub_one_of_lt hlt), List.getD_eq_getElem?_getD, hentry,
    Option.getD_some,
    Nat.zero_add]

/-- **Character offsets grow with byte offsets**, whether or not there is a table. -/
theorem toChar_mono (cs : List Char) {a b : Nat} (h : a ≤ b) :
    toChar (table? cs) a ≤ toChar (table? cs) b := by
  unfold table?
  split
  · exact h
  · exact toChar_tableFrom_mono cs h

/-- **A boundary has as many characters before it as its offset says**, whether or not there is a
table. -/
theorem toChar_byteSize (before after : List Char) :
    toChar (table? (before ++ after)) (byteSize before) = before.length := by
  unfold table?
  split
  · -- a longer encoding of either part would make the whole one longer
    rename_i hsame
    have hbefore := length_le_byteSize before
    have hafter := length_le_byteSize after
    rw [byteSize_append, List.length_append] at hsame
    show byteSize before = before.length
    omega
  · exact toChar_tableFrom_byteSize before after

theorem toChar_le {cs : List Char} {byte : Nat} (h : byte ≤ byteSize cs) :
    toChar (table? cs) byte ≤ cs.length := by
  have hend := toChar_byteSize cs []
  rw [List.append_nil] at hend
  exact hend ▸ toChar_mono cs h

/-! ## Past the end -/

theorem toChar_tableFrom_min (cs : List Char) (byte : Nat) :
    toChar (some (tableFrom 0 cs)) (min byte (byteSize cs)) = toChar (some (tableFrom 0 cs))
      byte := by
  simp only [toChar, length_tableFrom, Nat.add_sub_cancel, Nat.min_assoc, Nat.min_self]

theorem toChar_tableFrom_le (cs : List Char) (byte : Nat) :
    toChar (some (tableFrom 0 cs)) byte ≤ cs.length := by
  have hend := toChar_tableFrom_byteSize cs []
  rw [List.append_nil] at hend
  calc toChar (some (tableFrom 0 cs)) byte
      = toChar (some (tableFrom 0 cs)) (min byte (byteSize cs)) :=
        (toChar_tableFrom_min cs byte).symm
    _ ≤ toChar (some (tableFrom 0 cs)) (byteSize cs) :=
      toChar_tableFrom_mono cs (Nat.min_le_right _ _)
    _ = cs.length := hend

theorem toChar_tableFrom_of_isAscii {cs : List Char} (h : IsAscii cs) (byte : Nat) :
    toChar (some (tableFrom 0 cs)) byte = min byte cs.length := by
  have hsize : ∀ part, (∀ c ∈ part, c ∈ cs) → byteSize part = part.length :=
    fun part hpart => (byteSize_eq_length_iff part).mpr fun c hc => h c (hpart c hc)
  have hall := hsize cs fun _ => id
  have hbefore := hsize (cs.take byte) fun _ => List.mem_of_mem_take
  -- between single bytes every offset is a boundary
  have hboundary := toChar_tableFrom_byteSize (cs.take byte) (cs.drop byte)
  rwa [List.take_append_drop, hbefore, List.length_take, ← hall, toChar_tableFrom_min, hall]
    at hboundary

theorem table?_of_isAscii {cs : List Char} (h : IsAscii cs) : table? cs = none :=
  if_pos ((byteSize_eq_length_iff cs).mpr h)

theorem table?_of_not_isAscii {cs : List Char} (h : ¬ IsAscii cs) :
    table? cs = some (tableFrom 0 cs) :=
  if_neg fun hsame => h ((byteSize_eq_length_iff cs).mp hsame)

/-! ## Boundaries -/

theorem exists_take_of_isValid {text : String} {byte : Nat}
    (h : (⟨byte⟩ : String.Pos.Raw).IsValid text) :
    ∃ i ≤ text.length, byte = byteSize (text.toList.take i)
      ∧ toChar (table? text.toList) byte = i := by
  obtain ⟨i, hi⟩ := String.Pos.Raw.isValid_iff_exists_take_toList.mp h
  have hsize : byte = byteSize (text.toList.take i) := hi
  refine ⟨min i text.length, Nat.min_le_right _ _, ?_, ?_⟩
  · rw [hsize, ← String.length_toList, ← List.take_eq_take_min]
  · have hcount := toChar_byteSize (text.toList.take i) (text.toList.drop i)
    rwa [List.take_append_drop, ← hsize, List.length_take, String.length_toList] at hcount

/-- **The characters between two boundaries are encoded by the bytes between them.** The text is
taken apart at the boundaries, and its encoding with it. -/
theorem toUTF8_slice {text : String} {a b : Nat} (ha : (⟨a⟩ : String.Pos.Raw).IsValid text)
    (hb : (⟨b⟩ : String.Pos.Raw).IsValid text) (hab : a ≤ b) :
    (Text.slice text (toChar (table? text.toList) a) (toChar (table? text.toList) b)).toUTF8
      = text.toUTF8.extract a b := by
  have hmono := toChar_mono text.toList hab
  obtain ⟨i, hi, rfl, hicount⟩ := exists_take_of_isValid ha
  obtain ⟨j, hj, rfl, hjcount⟩ := exists_take_of_isValid hb
  rw [hicount, hjcount] at hmono ⊢
  rw [Text.slice_ofNat hi hj, String.toUTF8_eq_toByteArray, String.toUTF8_eq_toByteArray,
    String.toByteArray_ofList]
  -- the text before, between and after the two boundaries
  generalize hbetween : (text.toList.drop i).take (j - i) = between
  have hupto : text.toList.take j = text.toList.take i ++ between := by
    rw [← hbetween, ← List.take_add, Nat.add_sub_cancel' hmono]
  have htext : text.toByteArray
      = (text.toList.take i).utf8Encode ++ between.utf8Encode
        ++ (text.toList.drop j).utf8Encode := by
    rw [← String.utf8Encode_toList, ← List.utf8Encode_append, ← hupto, ← List.utf8Encode_append,
      List.take_append_drop]
  have hsize : ∀ cs, byteSize cs = cs.utf8Encode.size := by
    intro cs
    rw [byteSize, ← String.size_toByteArray, String.toByteArray_ofList]
  rw [htext, hupto, hsize, hsize, List.utf8Encode_append, ByteArray.append_assoc,
    ByteArray.size_append]
  -- what is left of the bytes is the part in the middle
  have hcut := ByteArray.extract_append_size_add
    (a := (text.toList.take i).utf8Encode)
      (b := between.utf8Encode ++ (text.toList.drop j).utf8Encode)
    (i := 0) (j := between.utf8Encode.size)
  rw [Nat.add_zero, ByteArray.extract_append_eq_left rfl] at hcut
  exact hcut.symm

/-! ## What a table says -/

/-- The byte is one of those that encode the character of number `index`. -/
def Encodes (text : String) (index byte : Nat) : Prop :=
  ∃ before c after, text = before ++ String.singleton c ++ after ∧ before.length = index
    ∧ before.toUTF8.size ≤ byte ∧ byte < (before ++ String.singleton c).toUTF8.size

theorem encodes_iff {text : String} {index byte : Nat} :
    Encodes text index byte ↔ ∃ before c after, text.toList = before ++ c :: after
      ∧ before.length = index
      ∧ byteSize before ≤ byte ∧ byte < byteSize before + c.utf8Size := by
  constructor
  · rintro ⟨before, c, after, rfl, hindex, hstart, hend⟩
    rw [← byteSize_toList] at hstart hend
    rw [String.toList_append, String.toList_singleton, byteSize_append, byteSize_cons,
      byteSize_nil] at hend
    refine ⟨before.toList, c, after.toList, ?_, String.length_toList ▸ hindex, hstart, hend⟩
    rw [String.toList_append, String.toList_append, String.toList_singleton, List.append_assoc,
      List.singleton_append]
  · rintro ⟨before, c, after, htext, hindex, hstart, hend⟩
    refine ⟨String.ofList before, c, String.ofList after, ?_, ?_, ?_, ?_⟩
    · rw [← String.toList_inj, htext]
      simp
    · rwa [String.length_ofList]
    · rwa [← byteSize_toList, String.toList_ofList]
    · rwa [← byteSize_toList, String.toList_append, String.toList_ofList, String.toList_singleton,
        byteSize_append, byteSize_cons, byteSize_nil]

/-- The entries lead from the bytes of a text to its characters. They never fall and never skip a
character, so that a stretch of bytes becomes a stretch of characters. -/
structure Tabulates (text : String) (entries : List Nat) : Prop where
  /-- One for every byte, and one for the end. -/
  length_eq : entries.length = text.toUTF8.size + 1
  sorted : entries.Pairwise (· ≤ ·)
  steps : entries.IsChain (fun here next => next ≤ here + 1)
  /-- The entry of a byte is the number of the character that it helps to encode. -/
  entry_iff : ∀ byte < text.toUTF8.size, ∀ index, entries[byte]? = some index
    ↔ Encodes text index byte
  /-- The entry after the bytes of the first characters is their number. -/
  boundary : ∀ i ≤ text.length, entries[(Text.slice text 0 i).toUTF8.size]? = some i
  last : entries.getLast? = some text.length

theorem getElem?_tableFrom_iff {text : String} {byte : Nat} (h : byte < text.toUTF8.size)
    (index : Nat) :
    (tableFrom 0 text.toList)[byte]? = some index ↔ Encodes text index byte := by
  have hentry : ∀ number, Encodes text number byte →
      (tableFrom 0 text.toList)[byte]? = some number := by
    intro number hnumber
    obtain ⟨before, c, after, htext, rfl, hstart, hend⟩ := encodes_iff.mp hnumber
    rw [htext, getElem?_tableFrom_of_lt 0 before after hstart hend, Nat.zero_add]
  refine ⟨fun hindex => ?_, hentry index⟩
  -- some character has the byte, and the entry is its number
  rw [← byteSize_toList] at h
  obtain ⟨before, c, after, htext, hstart, hend⟩ := exists_of_lt_byteSize h
  have hhas : Encodes text before.length byte :=
    encodes_iff.mpr ⟨before, c, after, htext, rfl, hstart, hend⟩
  rw [hentry _ hhas, Option.some.injEq] at hindex
  exact hindex ▸ hhas

theorem getElem?_tableFrom_slice {text : String} {i : Nat} (hi : i ≤ text.length) :
    (tableFrom 0 text.toList)[(Text.slice text 0 i).toUTF8.size]? = some i := by
  have hslice : Text.slice text 0 i = String.ofList (text.toList.take i) :=
    Text.slice_ofNat (Nat.zero_le _) hi
  have hentry := getElem?_tableFrom 0 (text.toList.take i) (text.toList.drop i)
  rw [List.take_append_drop, Nat.zero_add, List.length_take_of_le (String.length_toList ▸ hi)]
    at hentry
  rwa [hslice, ← byteSize_toList, String.toList_ofList]

theorem getLast?_tableFrom (index : Nat) (cs : List Char) :
    (tableFrom index cs).getLast? = some (index + cs.length) := by
  have hentry := getElem?_tableFrom index cs []
  rwa [List.append_nil, ← Nat.add_sub_cancel (n := byteSize cs) (m := 1),
    ← length_tableFrom index cs,
    ← List.getLast?_eq_getElem?] at hentry

theorem tabulates_tableFrom (text : String) : Tabulates text (tableFrom 0 text.toList) where
  length_eq := by rw [length_tableFrom, byteSize_toList]
  sorted := pairwise_tableFrom 0 text.toList
  steps := isChain_tableFrom 0 text.toList
  entry_iff _ := getElem?_tableFrom_iff
  boundary _ := getElem?_tableFrom_slice
  last := by rw [getLast?_tableFrom, Nat.zero_add, String.length_toList]

/-- Every entry is settled: those of the bytes by the characters, and the last one by their
number. -/
theorem Tabulates.unique {text : String} {entries others : List Nat} (h : Tabulates text entries)
    (hothers : Tabulates text others) : others = entries := by
  refine List.ext_getElem? fun byte => ?_
  -- a byte, the end, or past the end
  rcases Nat.lt_trichotomy byte text.toUTF8.size with hbyte | rfl | hpast
  · have hinside : byte < entries.length := by
      rw [h.length_eq]
      omega
    have hentry := List.getElem?_eq_getElem hinside
    rw [hentry, hothers.entry_iff byte hbyte, ← h.entry_iff byte hbyte, hentry]
  · have hlast := h.last.trans hothers.last.symm
    rwa [List.getLast?_eq_getElem?, List.getLast?_eq_getElem?, h.length_eq, hothers.length_eq,
      Nat.add_sub_cancel, eq_comm] at hlast
  · have hnone : ∀ {table : List Nat}, table.length = text.toUTF8.size + 1 → table[byte]? = none :=
      fun hlength => List.getElem?_eq_none (hlength ▸ hpast)
    rw [hnone h.length_eq, hnone hothers.length_eq]

/-- **A text beyond ASCII has a table, and it leads from the bytes to the characters.** An ASCII
text has none. Otherwise there is an entry for each byte and one for the end, the entries rise by
one at most, that of a byte is the number of the character it belongs to, and that of a boundary is
the number of characters before it. No other list does this. -/
theorem table_tabulates (source : String) :
    (table? source.toList = none ↔ IsAscii source.toList)
      ∧ (¬ IsAscii source.toList →
          ∃ entries, table? source.toList = some entries ∧ Tabulates source entries
            ∧ ∀ others, Tabulates source others → others = entries) := by
  refine ⟨⟨fun hnone => ?_, table?_of_isAscii⟩, fun hwide => ?_⟩
  · by_contra hwide
    rw [table?_of_not_isAscii hwide] at hnone
    cases hnone
  · have htable := tabulates_tableFrom source
    exact ⟨_, table?_of_not_isAscii hwide, htable, fun _ => htable.unique⟩

/-- Characters of one to four bytes. -/
theorem four_sizes_tabulated :
    ¬ IsAscii "aé✓😀".toList
      ∧ table? "aé✓😀".toList = some [0, 1, 1, 2, 2, 2, 3, 3, 3, 3, 4]
      ∧ Tabulates "aé✓😀" [0, 1, 1, 2, 2, 2, 3, 3, 3, 3, 4] := by
  have hwide : ¬ IsAscii "aé✓😀".toList := (byteSize_eq_length_iff _).not.mp (by decide)
  have hentries : table? "aé✓😀".toList = some [0, 1, 1, 2, 2, 2, 3, 3, 3, 3, 4] := by decide +kernel
  obtain ⟨entries, hsome, htable, -⟩ := (table_tabulates "aé✓😀").2 hwide
  rw [hentries, Option.some.injEq] at hsome
  exact ⟨hwide, hentries, hsome ▸ htable⟩

end SyntaxForest.ByteOffsets
