import SyntaxForest.Proofs.Native.Growth
import SyntaxForest.Proofs.Source.ByteOffsets
import SyntaxForest.Proofs.Source.LineIndex

/-!
# Spans in bytes and in characters

A node and the native node it copies denote the same text, the one counting characters and the other
bytes.

* **`Scan.offset_fits_iff`** — which byte offsets past the end of the text are taken for its end.
* **`Scan.nodeInfo_ok`** — the span and the name of a node whose native node counts bytes forwards.
* **`SyntaxTree.spans_denote_bytes`** — for native nodes between characters, text, name, lines and
  columns.
-/

namespace SyntaxForest

namespace Scan

variable {settings : GrowthSettings} {source : String} {info : NativeInfo}
  {children : List NativeTree}

/-- The character offset of a byte offset of the text. -/
def charOffset (source : String) (byte : Int) : Nat :=
  ByteOffsets.toChar (ByteOffsets.table? source.toList) byte.toNat

/-- The span of the characters from one offset to another, with lines and columns. -/
def spanOf (source : String) (start stop : Nat) (h : start ≤ stop) : Span :=
  let first := (LineIndex.ofText source).lineColumn start
  let last := (LineIndex.ofText source).lineColumn stop
  { start, stop, startLine := some first.1, startColumn := some first.2,
    stopLine := some last.1, stopColumn := some last.2, start_le_stop := h }

theorem charOffset_mono (source : String) {a b : Int} (h : a ≤ b) :
    charOffset source a ≤ charOffset source b :=
  ByteOffsets.toChar_mono _ (by omega)

theorem charOffset_le {byte : Int} (h : byte ≤ source.utf8ByteSize) :
    charOffset source byte ≤ source.length := by
  have hsize : ByteOffsets.byteSize source.toList = source.utf8ByteSize := by
    rw [ByteOffsets.byteSize, String.ofList_toList]
  rw [← String.length_toList]
  exact ByteOffsets.toChar_le (by omega)

theorem toChar_eq {byte : Int} (h : 0 ≤ byte) :
    (ofSource settings source).toChar byte = .ok (charOffset source byte) := by
  unfold toChar ByteOffsets.toCharSigned
  rw [if_pos h]
  rfl

theorem span_eq {start stop : Nat} (h : start ≤ stop) :
    (ofSource settings source).span start stop = .ok (spanOf source start stop h) := by
  unfold span Span.between Span.build
  rw [if_pos (by simp), dif_pos (by simpa using h)]
  rfl

/-- The name found in the text, if it is not empty. -/
def nameText (source : String) (children : List NativeTree) : Option String :=
  (NativeTree.nameOf? children).bind fun name =>
    let text := Text.slice source (charOffset source name.info.startByte)
      (charOffset source name.info.stopByte)
    if text = "" then none else some text

theorem nameOf_eq (h : ∀ name, NativeTree.nameOf? children = some name →
      0 ≤ name.info.startByte ∧ 0 ≤ name.info.stopByte) :
    (ofSource settings source).nameOf children = .ok (nameText source children) := by
  unfold nameOf nameText
  cases hname : NativeTree.nameOf? children with
  | none => rfl
  | some name =>
    obtain ⟨hstart, hstop⟩ := h name hname
    rw [Option.bind_some]
    simp only [toChar_eq hstart, toChar_eq hstop]
    rfl

theorem nodeInfo_ok {made : NodeInfo} (hstart : 0 ≤ info.startByte)
    (hle : info.startByte ≤ info.stopByte)
    (h : (ofSource settings source).nodeInfo info children = .ok made) :
    (ofSource settings source).nameOf children = .ok made.name
      ∧ made.span = some (spanOf source (charOffset source info.startByte)
          (charOffset source info.stopByte) (charOffset_mono source hle)) := by
  rw [nodeInfo, toChar_eq hstart, toChar_eq (Int.le_trans hstart hle)] at h
  obtain ⟨_, ⟨⟩, h⟩ := exists_ok_of_bind h
  obtain ⟨_, ⟨⟩, h⟩ := exists_ok_of_bind h
  obtain ⟨name, hname, h⟩ := exists_ok_of_bind h
  obtain ⟨span, hspan, h⟩ := exists_ok_of_bind h
  rw [span_eq (charOffset_mono source hle), Except.ok.injEq] at hspan
  cases h
  exact ⟨hname, congrArg some hspan.symm⟩

theorem exists_nodeInfo (hstart : 0 ≤ info.startByte) (hle : info.startByte ≤ info.stopByte)
    {name : Option String} (hname : (ofSource settings source).nameOf children = .ok name) :
    ∃ made, (ofSource settings source).nodeInfo info children = .ok made := by
  rw [nodeInfo, toChar_eq hstart, toChar_eq (Int.le_trans hstart hle), hname]
  simp only [bind, Except.bind]
  -- the offsets are in order, so the span is never refused
  rw [span_eq (charOffset_mono source hle)]
  exact ⟨_, rfl⟩

/-! ## Past the end of the text -/

/-- **Offsets past the end stay within the text, unless it is ASCII.** Every byte offset has a
character offset, which does not fall as the byte offset grows. It is at most the length of the
text, and what the table of the text has for it, with just one exception: the text is ASCII and the
offset is past its end. An ASCII text is never looked up in a table, so the offset is then left past
the end as it is. -/
theorem offset_fits_iff (settings : GrowthSettings) (source : String) (byte : Nat) :
    ∃ place : Nat, (ofSource settings source).toChar byte = .ok place
      ∧ (place ≤ source.length ↔ (ByteOffsets.IsAscii source.toList → byte ≤ source.length))
      ∧ (place = ByteOffsets.toChar (some (ByteOffsets.tableFrom 0 source.toList)) byte
          ↔ (ByteOffsets.IsAscii source.toList → byte ≤ source.length))
      ∧ (ByteOffsets.IsAscii source.toList → place = byte)
      ∧ ∀ later laterPlace : Nat, byte ≤ later →
          (ofSource settings source).toChar later = .ok laterPlace → place ≤ laterPlace := by
  refine ⟨charOffset source byte, toChar_eq (Int.natCast_nonneg _), ?_⟩
  have hmono : ∀ later laterPlace : Nat, byte ≤ later →
      (ofSource settings source).toChar later = .ok laterPlace →
      charOffset source byte ≤ laterPlace := by
    intro later laterPlace hle hlater
    rw [toChar_eq (Int.natCast_nonneg _), Except.ok.injEq, Int.natCast_inj] at hlater
    exact hlater ▸ charOffset_mono source (Int.ofNat_le.mpr hle)
  -- ASCII texts have no table
  by_cases hascii : ByteOffsets.IsAscii source.toList
  · -- there is no table, so the offset stays as it is
    have hsame : charOffset source byte = byte := by
      rw [charOffset, ByteOffsets.table?_of_isAscii hascii]
      rfl
    rw [hsame] at hmono ⊢
    rw [ByteOffsets.toChar_tableFrom_of_isAscii hascii, String.length_toList]
    refine ⟨⟨fun h _ => h, fun h => h hascii⟩, ⟨fun h _ => by omega, fun h => ?_⟩,
      fun _ => rfl, hmono⟩
    exact (Nat.min_eq_left (h hascii)).symm
  · -- the last entry of the table is as far as a lookup leads
    have hlookup : charOffset source byte = ByteOffsets.toChar
        (some (ByteOffsets.tableFrom 0 source.toList)) byte := by
      rw [charOffset, ByteOffsets.table?_of_not_isAscii hascii]
      rfl
    have hle := ByteOffsets.toChar_tableFrom_le source.toList byte
    rw [← hlookup, String.length_toList] at hle
    have hfits : ByteOffsets.IsAscii source.toList → byte ≤ source.length :=
      fun h => absurd h hascii
    exact ⟨iff_of_true hle hfits, iff_of_true hlookup hfits, fun h => absurd h hascii, hmono⟩

/-- Of `"äb"` every byte offset fits, and of `"ab"` those up to its end. -/
theorem offsets_of_two_letters_fit :
    (¬ ByteOffsets.IsAscii "äb".toList ∧ ∃ place : Nat, (ofSource {} "äb").toChar 7 = .ok place
      ∧ place ≤ 2)
      ∧ ByteOffsets.IsAscii "ab".toList ∧ ∃ place : Nat, (ofSource {} "ab").toChar 2 = .ok place
      ∧ place ≤ 2
        ∧ place = ByteOffsets.toChar (some (ByteOffsets.tableFrom 0 "ab".toList)) 2
        ∧ place ≤ 5 := by
  have hwide : ¬ ByteOffsets.IsAscii "äb".toList := by
    intro h
    exact absurd (h 'ä' (by decide)) (by decide)
  have hascii : ByteOffsets.IsAscii "ab".toList :=
    (ByteOffsets.byteSize_eq_length_iff _).mp (by decide)
  obtain ⟨place, hplace, hfits, -⟩ := offset_fits_iff {} "äb" 7
  obtain ⟨two, htwo, hfitsTwo, hlookup, -, hmono⟩ := offset_fits_iff {} "ab" 2
  refine ⟨⟨hwide, place, hplace, hfits.mpr fun h => absurd h hwide⟩, hascii, two, htwo, ?_, ?_, ?_⟩
  · exact hfitsTwo.mpr fun _ => Nat.le_refl 2
  · exact hlookup.mpr fun _ => Nat.le_refl 2
  · exact hmono 5 5 (by decide) rfl

/-- In `"ab"` the byte offset 5 becomes a character offset past the end, where the table would give
the end. -/
theorem offset_past_two_letters :
    (ofSource {} "ab").toChar 5 = .ok 5 ∧ "ab".length < 5
      ∧ ByteOffsets.toChar (some (ByteOffsets.tableFrom 0 "ab".toList)) 5 = "ab".length :=
  ⟨rfl, by decide, by decide⟩

end Scan

/-! ## Native nodes between characters -/

namespace NativeInfo

/-- The bytes that the native node covers. -/
def bytes (info : NativeInfo) (source : String) : ByteArray :=
  source.toUTF8.extract info.startByte.toNat info.stopByte.toNat

/-- The native node begins and ends between two characters of the text, or at an end of it. -/
structure Bounded (info : NativeInfo) (source : String) : Prop where
  start_nonneg : 0 ≤ info.startByte
  start_le_stop : info.startByte ≤ info.stopByte
  start_valid : (⟨info.startByte.toNat⟩ : String.Pos.Raw).IsValid source
  stop_valid : (⟨info.stopByte.toNat⟩ : String.Pos.Raw).IsValid source

variable {info : NativeInfo} {source : String}

theorem Bounded.stop_nonneg (h : info.Bounded source) : 0 ≤ info.stopByte :=
  Int.le_trans h.start_nonneg h.start_le_stop

theorem Bounded.charOffset_le (h : info.Bounded source) :
    Scan.charOffset source info.stopByte ≤ source.length := by
  have hsize : info.stopByte.toNat ≤ source.utf8ByteSize := h.stop_valid.le_utf8ByteSize
  exact Scan.charOffset_le (by omega)

/-- **The characters of the span are the bytes of the native node.** -/
theorem Bounded.toUTF8_slice (h : info.Bounded source) :
    (Text.slice source (Scan.charOffset source info.startByte)
      (Scan.charOffset source info.stopByte)).toUTF8 = info.bytes source := by
  have hle : info.startByte.toNat ≤ info.stopByte.toNat := Int.toNat_le_toNat h.start_le_stop
  exact ByteOffsets.toUTF8_slice h.start_valid h.stop_valid hle

end NativeInfo

/-- If one of the children is a name, then it lies between characters. -/
def NativeTree.NameBounded (m : NativeTree) (source : String) : Prop :=
  ∀ name, NativeTree.nameOf? m.children = some name → name.info.Bounded source

theorem NativeTree.NameBounded.nameOf_eq {m : NativeTree} {source : String}
    (h : m.NameBounded source) (settings : GrowthSettings) :
    (Scan.ofSource settings source).nameOf m.children = .ok (Scan.nameText source m.children) :=
  Scan.nameOf_eq fun name hname => ⟨(h name hname).start_nonneg, (h name hname).stop_nonneg⟩

theorem NativeTree.NameBounded.toUTF8_nameText {m : NativeTree} {source : String}
    (h : m.NameBounded source) :
    (Scan.nameText source m.children).map String.toUTF8
      = ((NativeTree.nameOf? m.children).map (·.info.bytes source)).filter (·.size != 0) := by
  unfold Scan.nameText
  cases hname : NativeTree.nameOf? m.children with
  | none => rfl
  | some name =>
    have hbytes := (h name hname).toUTF8_slice
    rw [Option.bind_some, Option.map_some, ← hbytes]
    generalize Text.slice source _ _ = text
    by_cases hempty : text = ""
    · subst hempty
      rfl
    · have hsize : text.toUTF8.size ≠ 0 := by
        intro hzero
        exact hempty (String.utf8ByteSize_eq_zero_iff.mp hzero)
      rw [if_neg hempty, Option.map_some, Option.filter_some, if_pos (bne_iff_ne.mpr hsize)]

namespace SyntaxTree

/-- The node, which covers the span in characters, and the native node, which counts bytes, denote
the same text, name and places. -/
structure Denotes (t : SyntaxTree) (m : NativeTree) (n : SyntaxNode) (span : Span) : Prop where
  spanned : n.span = some span
  within : span.start ≤ span.stop ∧ span.stop ≤ t.source.length
  text : ∃ text, t.nodeText (some n) = .ok text ∧ text.toUTF8 = m.info.bytes t.source
  name : m.NameBounded t.source → n.info.name.map String.toUTF8
    = ((NativeTree.nameOf? m.children).map (·.info.bytes t.source)).filter (·.size != 0)
  places : ∃ first last : Nat × Nat,
    (span.startLine = some first.1 ∧ span.startColumn = some first.2
      ∧ t.lineIndex.lineColumnGiven (.int span.start) = .ok (first.1, .int first.2))
    ∧ (span.stopLine = some last.1 ∧ span.stopColumn = some last.2
      ∧ t.lineIndex.lineColumnGiven (.int span.stop) = .ok (last.1, .int last.2))
    ∧ (first.1 < last.1 ∨ first.1 = last.1 ∧ first.2 ≤ last.2)

theorem textOf_some (t : SyntaxTree) {s : Span} (h : s.stop ≤ t.source.length) :
    t.textOf (some s) = Text.slice t.source s.start s.stop := by
  rw [textOf]
  rcases Nat.lt_or_eq_of_le s.start_le_stop with hlt | heq
  · rw [if_pos (by simp [hlt, h])]
  · rw [if_neg (by simp [heq]), heq, Text.slice_ofNat h h, Nat.sub_self, List.take_zero]

theorem textOf_spanOf (t : SyntaxTree) {i j : Nat} (hij : i ≤ j) (hj : j ≤ t.source.length) :
    t.textOf (some (Scan.spanOf t.source i j hij)) = Text.slice t.source i j :=
  t.textOf_some hj

/-- **Bytes and characters denote the same text.** The nodes of the tree made of a native tree are
its kept native nodes, in order, and each that lies between characters denotes what its native node
does. The tree is made if they all lie between characters and have kinds. -/
theorem spans_denote_bytes (settings : GrowthSettings) (source : String) (root : NativeTree) :
    let native := root.kept (Scan.ofSource settings source)
    ((∀ m ∈ native, m.info.kind ≠ "" ∧ m.info.Bounded source ∧ m.NameBounded source) →
        ∃ t, MadeFrom t settings source root)
      ∧ ∀ t, MadeFrom t settings source root → native.length = t.allNodes.length
        ∧ ∀ m n, (m, n) ∈ native.zip t.allNodes → m.info.Bounded source →
          ∃ span, t.Denotes m n span := by
  intro native
  constructor
  · intro h
    refine exists_madeFrom_iff.mpr fun m hm => ?_
    obtain ⟨hkind, hm, hname⟩ := h m hm
    exact ⟨hkind, Scan.exists_nodeInfo hm.start_nonneg hm.start_le_stop (hname.nameOf_eq settings)⟩
  -- the nodes are copies in order, so each is described by its native node
  · intro t ht
    obtain ⟨rfl, hcopies⟩ := ht.copies
    refine ⟨hcopies.forall₂.length_eq, fun m n hmn hm => ?_⟩
    obtain ⟨-, hsays⟩ := List.forall₂_zip hcopies.forall₂ hmn
    obtain ⟨hname, hspan⟩ := Scan.nodeInfo_ok hm.start_nonneg hm.start_le_stop hsays
    have hstop := hm.charOffset_le
    have hle : Scan.charOffset t.source m.info.startByte ≤ Scan.charOffset t.source
        m.info.stopByte :=
      Scan.charOffset_mono t.source hm.start_le_stop
    refine ⟨_, hspan, ⟨hle, hstop⟩, ⟨_, rfl, ?_⟩, fun hbounded => ?_,
      (LineIndex.ofText t.source).lineColumn _, (LineIndex.ofText t.source).lineColumn _,
      ⟨rfl, rfl, LineIndex.lineColumnGiven_int ..⟩, ⟨rfl, rfl, LineIndex.lineColumnGiven_int ..⟩,
      LineIndex.lineColumn_le _ hle hstop⟩
    -- the text
    · show (t.textOf n.info.span).toUTF8 = _
      rw [hspan, textOf_spanOf t hle hstop, hm.toUTF8_slice]
    -- and the name
    · rw [hbounded.nameOf_eq settings, Except.ok.injEq] at hname
      rw [← hname, hbounded.toUTF8_nameText]

/-- The last of four bytes, as a name. -/
def lastByte : NativeTree :=
  .node { kind := "identifier", startByte := 3, stopByte := 4, isNamed := true } true []

/-- Four bytes with a name. -/
def fourBytes : NativeTree :=
  .node { kind := "program", startByte := 0, stopByte := 4, isNamed := true } false [lastByte]

theorem kept_fourBytes : fourBytes.kept (Scan.ofSource {} "é\nx") = [fourBytes, lastByte] := by
  simp [fourBytes, lastByte, NativeTree.kept, NativeTree.keptAll, Scan.keeps, NativeTree.info]

/-- The letter of two bytes comes before the name, so byte and character offsets of the name
differ. -/
theorem four_bytes_denote :
    "é\nx".length = 3 ∧ "é\nx".utf8ByteSize = 4 ∧ fourBytes.NameBounded "é\nx"
      ∧ ∃ t span, MadeFrom t {} "é\nx" fourBytes ∧ t.Denotes fourBytes t.root span := by
  have hvalid : ∀ byte i, byte = ByteOffsets.byteSize ("é\nx".toList.take i) →
      (⟨byte⟩ : String.Pos.Raw).IsValid "é\nx" :=
    fun byte i h => String.Pos.Raw.isValid_iff_exists_take_toList.mpr ⟨i, h⟩
  have hname : lastByte.info.Bounded "é\nx" :=
    ⟨by decide, by decide, hvalid 3 2 (by decide), hvalid 4 3 (by decide)⟩
  have hroot : fourBytes.info.Bounded "é\nx" :=
    ⟨by decide, by decide, hvalid 0 0 (by decide), hvalid 4 3 (by decide)⟩
  have hnamed : fourBytes.NameBounded "é\nx" := by
    rintro name ⟨⟩
    exact hname
  obtain ⟨hmade, hdenotes⟩ := spans_denote_bytes {} "é\nx" fourBytes
  rw [kept_fourBytes] at hmade hdenotes
  obtain ⟨t, ht⟩ := hmade (by
    rintro m (_ | ⟨_, _ | ⟨_, ⟨⟩⟩⟩)
    · exact ⟨by decide, hroot, hnamed⟩
    · exact ⟨by decide, hname, fun name h => by cases h⟩)
  have hfirst : (fourBytes, t.root) ∈ [fourBytes, lastByte].zip t.allNodes := by
    rw [allNodes]
    cases t.root
    simp [SyntaxNode.preorder]
  obtain ⟨span, hspan⟩ := (hdenotes t ht).2 fourBytes t.root hfirst hroot
  exact ⟨by decide, by decide, hnamed, t, span, ht, hspan⟩

end SyntaxTree

end SyntaxForest
