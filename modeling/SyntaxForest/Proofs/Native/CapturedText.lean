import SyntaxForest.Proofs.Native.Spans

/-!
# The text captured with a node

A node keeps the beginning of its text, cut after a limit and then marked. The limit is a setting
that may be any integer. Cutting takes it for the end of a slice, and the end of a slice that is
below zero counts from the other end of the text; so a negative limit cuts everything away only if
the slice does not come around to the source again.

* **`Text.abridged`** — a text that is cut after a limit, where a negative limit leaves nothing.
* **`Scan.capture_of_nonneg`**, **`Scan.capture_of_neg`** — what is captured, for the two signs of
  the limit.
* **`Scan.capture_eq_abridged_iff`** — when that is the text of the node, cut.
* **`SyntaxTree.texts_abridged_iff`** — the same for all nodes of a tree.
-/

namespace SyntaxForest

namespace Text

/-- The text if it is no longer than the limit, else as many of its first characters, and a mark. -/
def abridged (limit : Int) (text : String) : String :=
  if (text.length : Int) ≤ limit then text else String.ofList (text.toList.take limit.toNat)
    ++ "..."

theorem exists_prefix_abridged (limit : Int) (text : String) :
    ∃ kept : String, kept.toList <+: text.toList
      ∧ (abridged limit text = kept ∨ abridged limit text = kept ++ "...") := by
  unfold abridged
  split
  · exact ⟨text, List.prefix_rfl, Or.inl rfl⟩
  · refine ⟨String.ofList (text.toList.take limit.toNat), ?_, Or.inr rfl⟩
    rw [String.toList_ofList]
    exact List.take_prefix _ _

theorem abridged_of_neg {limit : Int} (h : limit < 0) (text : String) :
    abridged limit text = "..." := by
  rw [abridged, if_neg (by omega), Int.toNat_of_nonpos (Int.le_of_lt h), List.take_zero]
  rfl

end Text

namespace Scan

variable {settings : GrowthSettings} {source : String} {start stop : Nat}

/-! ## Limits of either sign -/

/-- What is captured when so many characters are looked at. Both signs of the limit come down to
this: the slice that is looked at has `count` characters, and it is kept as it is or cut once
more. -/
theorem capture_of_limit {count : Nat} (hstart : start ≤ source.length)
    (hcount : count ≤ source.length - start)
    (hlook : Text.limit source.length (min (stop : Int) (start + settings.textLimit + 1)) - start
      = count) :
    (ofSource settings source).capture start stop
      = if (count : Int) ≤ settings.textLimit then String.ofList
        ((source.toList.drop start).take count)
        else String.ofList ((source.toList.drop start).take (Text.limit count settings.textLimit))
          ++ "..." := by
  -- there are as many characters as are looked at, since these do not reach past the end
  have hlength : (String.ofList ((source.toList.drop start).take count)).length = count := by
    rw [String.length_ofList, List.length_take, List.length_drop, String.length_toList,
      Nat.min_eq_left hcount]
  have hcut : Text.slice (String.ofList ((source.toList.drop start).take count))
      0 settings.textLimit
      = String.ofList ((source.toList.drop start).take (Text.limit count settings.textLimit)) := by
    have hle := Text.limit_le count settings.textLimit
    have hslice := Text.slice_from
      (Nat.zero_le (String.ofList ((source.toList.drop start).take count)).length)
      settings.textLimit
    rw [hlength, String.toList_ofList, List.drop_zero, List.take_take, Nat.sub_zero,
      Nat.min_eq_left hle] at hslice
    exact hslice
  have htext := Text.slice_from hstart (min (stop : Int) (start + settings.textLimit + 1))
  rw [hlook] at htext
  unfold capture
  simp only [ofSource, htext, hlength, hcut]
  rfl

theorem capture_of_nonneg (hle : start ≤ stop) (hstop : stop ≤ source.length)
    (hlimit : 0 ≤ settings.textLimit) :
    (ofSource settings source).capture start stop
      = Text.abridged settings.textLimit (Text.slice source start stop) := by
  obtain ⟨limit, hcount⟩ := Int.eq_ofNat_of_zero_le hlimit
  have hnode := Text.slice_ofNat (Nat.le_trans hle hstop) hstop
  have hlong : (Text.slice source start stop).length = stop - start := by
    rw [hnode, String.length_ofList, List.length_take, List.length_drop, String.length_toList]
    omega
  -- one character more than the limit is looked at, so that a longer text is told from one that
  -- just fits
  have hlook : Text.limit source.length (min (stop : Int) (start + settings.textLimit + 1)) - start
      = min (stop - start) (limit + 1) := by
    rw [Text.limit_of_nonneg (by omega)]
    omega
  rw [capture_of_limit (Nat.le_trans hle hstop) (by omega) hlook, Text.abridged, hlong, hcount]
  -- the text fits, or it is cut after the limit
  by_cases hfits : stop - start ≤ limit
  · rw [if_pos (by omega), if_pos (by omega), hnode, Nat.min_eq_left (by omega)]
  · have hkept : Text.limit (min (stop - start) (limit + 1)) limit = limit := by
      rw [Text.limit_of_nonneg (by omega)]
      omega
    rw [if_neg (by omega), if_neg (by omega), hkept, hnode, String.toList_ofList, List.take_take,
      Int.toNat_natCast, Nat.min_eq_left (by omega)]

/-- How many characters a negative limit leaves. A slice that ends before the beginning of the
source comes around to its end, and is then cut from there once more. -/
def leftover (limit : Int) (start length : Nat) : Nat :=
  if start + limit + 1 < 0 then (length + 2 * limit + 1).toNat else 0

theorem capture_of_neg (hle : start ≤ stop) (hstop : stop ≤ source.length)
    (hlimit : settings.textLimit < 0) :
    (ofSource settings source).capture start stop
      = String.ofList ((source.toList.drop start).take
        (leftover settings.textLimit start source.length))
        ++ "..." := by
  have hend : min (stop : Int) (start + settings.textLimit + 1)
      = start + settings.textLimit + 1 := by omega
  -- the slice that is looked at is not empty just when it comes around and ends behind its start
  have hlook : Text.limit source.length (min (stop : Int) (start + settings.textLimit + 1)) - start
      = if start + settings.textLimit + 1 < 0 then (source.length + settings.textLimit + 1).toNat
        else 0 := by
    rw [hend]
    split
    · rw [Text.limit_of_neg ‹_›]
      omega
    · rw [Text.limit_of_nonneg (by omega)]
      omega
  rw [capture_of_limit (Nat.le_trans hle hstop) (by split <;> omega) hlook, if_neg (by omega),
    leftover]
  congr 3
  rw [Text.limit_of_neg hlimit]
  split <;> omega

theorem leftover_eq_zero_iff {limit : Int} {start length : Nat} :
    leftover limit start length = 0 ↔ -limit ≤ start + 1 ∨ length < 2 * -limit := by
  unfold leftover
  split <;> omega

/-- **What is captured is the text of the span, cut after the limit**, unless a negative limit
reaches back beyond the beginning of the source and the source is long enough to leave something. -/
theorem capture_eq_abridged_iff (hle : start ≤ stop) (hstop : stop ≤ source.length) :
    (ofSource settings source).capture start stop
        = Text.abridged settings.textLimit (Text.slice source start stop)
      ↔ 0 ≤ settings.textLimit ∨ -settings.textLimit ≤ start + 1
        ∨ source.length < 2 * -settings.textLimit := by
  by_cases hlimit : 0 ≤ settings.textLimit
  · exact iff_of_true (capture_of_nonneg hle hstop hlimit) (Or.inl hlimit)
  · have hneg : settings.textLimit < 0 := Int.not_le.mp hlimit
    rw [capture_of_neg hle hstop hneg, Text.abridged_of_neg hneg, or_iff_right hlimit,
      ← leftover_eq_zero_iff]
    -- nothing is left of a text if nothing is to be left, or if there is nothing from here on
    constructor
    · intro heq
      have hnone : (source.toList.drop start).take (leftover settings.textLimit start source.length)
          = [] := by
        have hlists := congrArg String.toList heq
        rw [String.toList_append, String.toList_ofList] at hlists
        exact List.append_left_eq_self.mp hlists
      rcases List.take_eq_nil_iff.mp hnone with hzero | hend
      · exact hzero
      · -- a node at the end of the source starts too late for the slice to come around
        rw [List.drop_eq_nil_iff, String.length_toList] at hend
        refine leftover_eq_zero_iff.mpr ?_
        omega
    · intro hzero
      rw [hzero, List.take_zero]
      rfl

/-! ## Nodes -/

variable {info : NativeInfo} {children : List NativeTree}

theorem text_of_nodeInfo {made : NodeInfo} (hstart : 0 ≤ info.startByte)
    (hle : info.startByte ≤ info.stopByte)
    (h : (ofSource settings source).nodeInfo info children = .ok made) :
    made.text = some ((ofSource settings source).capture (charOffset source info.startByte)
      (charOffset source info.stopByte)) := by
  rw [nodeInfo, toChar_eq hstart, toChar_eq (Int.le_trans hstart hle)] at h
  obtain ⟨_, ⟨⟩, h⟩ := exists_ok_of_bind h
  obtain ⟨_, ⟨⟩, h⟩ := exists_ok_of_bind h
  obtain ⟨name, -, h⟩ := exists_ok_of_bind h
  obtain ⟨span, -, h⟩ := exists_ok_of_bind h
  cases h
  rfl

end Scan

/-- The native node covers bytes of the text. -/
structure NativeInfo.InText (info : NativeInfo) (source : String) : Prop where
  start_nonneg : 0 ≤ info.startByte
  start_le_stop : info.startByte ≤ info.stopByte
  stop_le : info.stopByte ≤ source.utf8ByteSize

namespace SyntaxTree

/-- The text captured with the node is that of its span, cut after the limit. -/
structure Captures (t : SyntaxTree) (limit : Int) (n : SyntaxNode) : Prop where
  text : n.info.text = some (Text.abridged limit (t.textOf n.span))
  /-- So it has no character from elsewhere. -/
  inside : ∃ kept : String, kept.toList <+: (t.textOf n.span).toList
    ∧ (n.info.text = some kept ∨ n.info.text = some (kept ++ "..."))

theorem captures_iff {t : SyntaxTree} {limit : Int} {n : SyntaxNode} :
    t.Captures limit n ↔ n.info.text = some (Text.abridged limit (t.textOf n.span)) := by
  refine ⟨Captures.text, fun htext => ⟨htext, ?_⟩⟩
  obtain ⟨kept, hprefix, hkept⟩ := Text.exists_prefix_abridged limit (t.textOf n.span)
  rw [htext]
  exact ⟨kept, hprefix, hkept.imp (congrArg some) (congrArg some)⟩

section Pair

variable {settings : GrowthSettings} {source : String} {native m : NativeTree} {t : SyntaxTree}
  {n : SyntaxNode} (ht : MadeFrom t settings source native)
  (hmn : (m, n) ∈ (native.kept (Scan.ofSource settings source)).zip t.allNodes)
  (hm : m.info.InText source)

include ht hmn

theorem MadeFrom.nodeInfo_eq :
    (Scan.ofSource settings source).nodeInfo m.info m.children = .ok n.info :=
  (List.forall₂_zip ht.copies.2.forall₂ hmn).2

include hm

theorem MadeFrom.text_eq : n.info.text = some ((Scan.ofSource settings source).capture
    (Scan.charOffset source m.info.startByte) (Scan.charOffset source m.info.stopByte)) :=
  Scan.text_of_nodeInfo hm.start_nonneg hm.start_le_stop (ht.nodeInfo_eq hmn)

theorem MadeFrom.span_eq :
    n.span = some (Scan.spanOf source (Scan.charOffset source m.info.startByte)
    (Scan.charOffset source m.info.stopByte) (Scan.charOffset_mono source hm.start_le_stop)) :=
  (Scan.nodeInfo_ok hm.start_nonneg hm.start_le_stop (ht.nodeInfo_eq hmn)).2

theorem MadeFrom.textOf_span_eq :
    t.textOf n.span = Text.slice source (Scan.charOffset source m.info.startByte)
    (Scan.charOffset source m.info.stopByte) := by
  have hspan := ht.span_eq hmn hm
  obtain rfl : t.source = source := ht.copies.1
  rw [hspan, textOf_spanOf t _ (Scan.charOffset_le hm.stop_le)]

end Pair

/-- **When the text captured with a node is its own.** The nodes of the tree made of a native tree
are its kept native nodes, in order. Take one that lies in the source, and any limit. The text
captured with the node is that of its span if it is no longer than the limit, else as many of its
first characters and a mark, just if the limit is not negative, or reaches back no farther than to
the beginning of the source, or is more than half of the source. The tree is made if all kept native
nodes lie in the source, and those that are their names, and have kinds. -/
theorem texts_abridged_iff (settings : GrowthSettings) (source : String) (root : NativeTree) :
    let native := root.kept (Scan.ofSource settings source)
    ((∀ m ∈ native, m.info.kind ≠ "" ∧ m.info.InText source
          ∧ ∀ name, NativeTree.nameOf? m.children = some name → name.info.InText source) →
        ∃ t, MadeFrom t settings source root)
      ∧ ∀ t, MadeFrom t settings source root → native.length = t.allNodes.length
        ∧ ∀ m n, (m, n) ∈ native.zip t.allNodes → m.info.InText source → ∃ span, n.span = some span
          ∧ (t.Captures settings.textLimit n
            ↔ 0 ≤ settings.textLimit ∨ -settings.textLimit ≤ span.start + 1
              ∨ source.length < 2 * -settings.textLimit) := by
  intro native
  constructor
  · intro h
    -- offsets that are not negative can be told in characters, those of the name too
    refine exists_madeFrom_iff.mpr fun m hm => ?_
    obtain ⟨hkind, hm, hname⟩ := h m hm
    refine ⟨hkind, Scan.exists_nodeInfo hm.start_nonneg hm.start_le_stop
      (Scan.nameOf_eq fun name hfound => ?_)⟩
    have hin := hname name hfound
    exact ⟨hin.start_nonneg, Int.le_trans hin.start_nonneg hin.start_le_stop⟩
  · intro t ht
    refine ⟨ht.copies.2.forall₂.length_eq, fun m n hmn hm => ⟨_, ht.span_eq hmn hm, ?_⟩⟩
    -- both texts are slices of the source now, and slices are compared by their ends
    rw [captures_iff, ht.textOf_span_eq hmn hm, ht.text_eq hmn hm, Option.some.injEq]
    exact Scan.capture_eq_abridged_iff (Scan.charOffset_mono source hm.start_le_stop)
      (Scan.charOffset_le hm.stop_le)

/-! ## Two negative limits -/

/-- A native node by itself. -/
def lone (startByte stopByte : Int) : NativeTree :=
  .node { kind := "text", startByte, stopByte, isNamed := true } false []

theorem mem_zip_lone (s : Scan) (t : SyntaxTree) (startByte stopByte : Int) :
    (lone startByte stopByte, t.root) ∈ ((lone startByte stopByte).kept s).zip t.allNodes := by
  rw [allNodes]
  cases t.root
  exact List.mem_cons_self

theorem exists_madeFrom_lone (settings : GrowthSettings) {source : String}
    {startByte stopByte : Int} (hin : (lone startByte stopByte).info.InText source) :
    ∃ t, MadeFrom t settings source (lone startByte stopByte) := by
  refine exists_madeFrom_iff.mpr ?_
  rintro m (_ | ⟨_, ⟨⟩⟩)
  exact ⟨show "text" ≠ "" by decide, Scan.exists_nodeInfo hin.start_nonneg hin.start_le_stop rfl⟩

/-- A limit that reaches back to the beginning of the source leaves the mark only. -/
theorem second_letter_abridged :
    (lone 2 7).info.InText "äbcdef" ∧ ∃ t, MadeFrom t { textLimit := -2 } "äbcdef" (lone 2 7)
      ∧ t.Captures (-2) t.root ∧ t.root.info.text = some "..." := by
  have hin : (lone 2 7).info.InText "äbcdef" := ⟨by decide, by decide, by decide⟩
  obtain ⟨t, ht⟩ := exists_madeFrom_lone { textLimit := -2 } hin
  have hroot := mem_zip_lone (Scan.ofSource { textLimit := -2 } "äbcdef") t 2 7
  obtain ⟨span, hspan, hiff⟩ := ((texts_abridged_iff _ _ _).2 t ht).2 _ _ hroot hin
  have hstart : span.start = Scan.charOffset "äbcdef" 2 :=
    congrArg Span.start (Option.some.inj (hspan.symm.trans (ht.span_eq hroot hin)))
  refine ⟨hin, t, ht, hiff.mpr (Or.inr (Or.inl ?_)),
    (ht.text_eq hroot hin).trans (by decide +kernel)⟩
  rw [hstart]
  decide +kernel

/-- A limit that reaches back farther leaves letters that the node does not have. -/
theorem first_letter_overrun :
    (lone 0 1).info.InText "abcdef" ∧ ∃ t, MadeFrom t { textLimit := -2 } "abcdef" (lone 0 1)
      ∧ t.textOf t.root.span = "a" ∧ t.root.info.text = some "abc..."
      ∧ ¬t.Captures (-2) t.root := by
  have hin : (lone 0 1).info.InText "abcdef" := ⟨by decide, by decide, by decide⟩
  obtain ⟨t, ht⟩ := exists_madeFrom_lone { textLimit := -2 } hin
  have hroot := mem_zip_lone (Scan.ofSource { textLimit := -2 } "abcdef") t 0 1
  have hspan : t.textOf t.root.span = "a" := (ht.textOf_span_eq hroot hin).trans (by decide +kernel)
  have htext : t.root.info.text = some "abc..." := (ht.text_eq hroot hin).trans (by decide +kernel)
  refine ⟨hin, t, ht, hspan, htext, fun h => ?_⟩
  have heq := htext.symm.trans h.text
  rw [Text.abridged_of_neg (by decide)] at heq
  exact absurd heq (by decide)

end SyntaxTree

end SyntaxForest
