import SyntaxForest.Text.CaseFold
import SyntaxForest.Text.LetterCase

/-!
# Letter case

Lowering the case of a text leaves nothing to lower, and no text vanishes when its case is folded.

* **`CaseRun.avoids`** — where one run moves its code points to, another one moves nothing.
* **`lowerCase_of_isLowered`**, **`isLowered_of_mem_lowerCase`** — a text in lower case stays as it
  is. The table sends no code point to one that is moved again, and a small sigma stays small
  wherever it stands.
* **`caseFold_eq_empty_iff`** — only the empty text has an empty folded form.
-/

namespace SyntaxForest.Text

/-! ## Runs of code points -/

namespace CaseRun

/-- The code points that a run covers, in order. -/
def codes (r : CaseRun) : List Nat :=
  (List.range ((r.last - r.first) / r.stride + 1)).map (r.first + · * r.stride)

/-- The run covers nothing outside these bounds, so nothing if it lies outside them. -/
def meets (r : CaseRun) (first last : Nat) : Bool := Nat.ble r.first last && Nat.ble first r.last

/-- Nothing that the first run moves ends where the second one moves it on. -/
def avoids (r r' : CaseRun) : Bool :=
  !(r'.meets (r.move r.first) (r.move r.last)) || r.codes.all fun n => !(r'.covers (r.move n))

/-- Everything that the run moves ends among the characters. -/
def isSound (r : CaseRun) : Bool :=
  r.move r.last < 55296 || (57343 < r.move r.first && r.move r.last < 1114112)

variable {r r' : CaseRun} {n : Nat}

theorem bounds_of_covers (h : r.covers n = true) : r.first ≤ n ∧ n ≤ r.last := by
  simp only [covers, Bool.and_eq_true, decide_eq_true_eq] at h
  exact h.1

theorem mem_codes_of_covers (h : r.covers n = true) : n ∈ r.codes := by
  obtain ⟨hfirst, hlast⟩ := bounds_of_covers h
  have hstride : r.stride ∣ n - r.first := by
    simp only [covers, Bool.and_eq_true, beq_iff_eq] at h
    exact Nat.dvd_of_mod_eq_zero h.2
  rw [codes, List.mem_map]
  refine ⟨(n - r.first) / r.stride, ?_, ?_⟩
  · have hle : (n - r.first) / r.stride ≤ (r.last - r.first) / r.stride :=
      Nat.div_le_div_right (by omega)
    rw [List.mem_range]
    omega
  · show r.first + (n - r.first) / r.stride * r.stride = n
    rw [Nat.div_mul_cancel hstride]
    omega

theorem move_bounds (h : r.covers n = true) :
    r.move r.first ≤ r.move n ∧ r.move n ≤ r.move r.last := by
  obtain ⟨hfirst, hlast⟩ := bounds_of_covers h
  simp only [move, Int.ofNat_eq_natCast]
  omega

theorem not_covers_of_avoids (havoids : r.avoids r' = true) (h : r.covers n = true) :
    r'.covers (r.move n) = false := by
  rw [avoids, Bool.or_eq_true, Bool.not_eq_true'] at havoids
  rcases havoids with happart | hall
  · -- the two runs lie apart
    obtain ⟨hfrom, hto⟩ := move_bounds h
    refine Bool.eq_false_iff.mpr fun hcovers => ?_
    obtain ⟨hfirst, hlast⟩ := bounds_of_covers hcovers
    rw [meets, Bool.and_eq_false_iff, Bool.eq_false_iff, Bool.eq_false_iff, Ne, Ne, Nat.ble_eq,
      Nat.ble_eq] at happart
    omega
  -- they overlap, and every code point was looked at
  · have hn := List.all_eq_true.mp hall n (mem_codes_of_covers h)
    rwa [Bool.not_eq_true'] at hn

theorem toNat_move (hsound : r.isSound = true) (h : r.covers n = true) :
    (Char.ofNat (r.move n)).toNat = r.move n := by
  obtain ⟨hfrom, hto⟩ := move_bounds h
  have hvalid : Nat.isValidChar (r.move n) := by
    simp only [isSound, Bool.or_eq_true, Bool.and_eq_true, decide_eq_true_eq] at hsound
    unfold Nat.isValidChar
    omega
  rw [Char.ofNat, dif_pos hvalid]
  rfl

end CaseRun

/-! ## Lower case -/

/-- Whatever lowering moves, as runs: capitals of the first block, the sigma, and what the tables
list. -/
def capitalRuns : List CaseRun :=
  ⟨65, 90, 1, 32⟩ :: ⟨931, 931, 1, 32⟩ :: (lowerExpansions.map fun e => ⟨e.1, e.1, 1, 0⟩)
    ++ lowerRuns

/-- Lowering leaves the code point alone. -/
def isLowered (n : Nat) : Bool := capitalRuns.all fun r => !(r.covers n)

/-- **The table moves no code point to one that is moved again.** -/
theorem lowerRuns_avoid_capitalRuns :
    lowerRuns.all (fun r => r.isSound && capitalRuns.all r.avoids) = true := by
  decide +kernel

theorem isLowered_lowerExpansions :
    lowerExpansions.all (fun e => e.2.all fun n => isLowered (Char.ofNat n).toNat) = true := by
  decide +kernel

theorem isLowered_move {r : CaseRun} (hr : r ∈ lowerRuns) {n : Nat} (h : r.covers n = true) :
    isLowered (Char.ofNat (r.move n)).toNat = true := by
  have htable := List.all_eq_true.mp lowerRuns_avoid_capitalRuns r hr
  rw [Bool.and_eq_true, List.all_eq_true] at htable
  rw [CaseRun.toNat_move htable.1 h, isLowered, List.all_eq_true]
  intro r' hr'
  rw [CaseRun.not_covers_of_avoids (htable.2 r' hr') h]
  rfl

theorem isLowered_iff {n : Nat} : isLowered n = true ↔
    ¬(65 ≤ n ∧ n ≤ 90) ∧ n ≠ 931 ∧ lowerRuns.find? (·.covers n) = none
      ∧ lowerExpansions.find? (·.1 == n) = none := by
  -- runs of a single code point stand for what is listed by itself
  have hsingle : ∀ m shift, (⟨m, m, 1, shift⟩ : CaseRun).covers n = (m == n) := fun m shift => by
    rw [Bool.eq_iff_iff]
    simp only [CaseRun.covers, Nat.mod_one, Bool.and_eq_true, decide_eq_true_eq,
      beq_iff_eq, and_true]
    omega
  have hletter : (⟨65, 90, 1, 32⟩ : CaseRun).covers n = true ↔ 65 ≤ n ∧ n ≤ 90 := by
    simp only [CaseRun.covers, Nat.mod_one, Bool.and_eq_true, decide_eq_true_eq,
      beq_self_eq_true, and_true]
  rw [isLowered, capitalRuns, List.cons_append, List.cons_append, List.all_cons,
    List.all_cons, List.all_append,
    List.all_map, hsingle, List.find?_eq_none, List.find?_eq_none]
  simp only [Function.comp_def, hsingle, Bool.and_eq_true, Bool.not_eq_true', Bool.eq_false_iff,
    Ne, hletter,
    List.all_eq_true, beq_iff_eq]
  grind

theorem isLowered_of_lt {n : Nat} (h : n < 128) (hcapital : ¬(65 ≤ n ∧ n ≤ 90)) :
    isLowered n = true := by
  have hlate : lowerRuns.all (fun r => Nat.ble 128 r.first) = true := by decide +kernel
  rw [isLowered_iff, List.find?_eq_none, List.find?_eq_none]
  refine ⟨hcapital, by omega, fun r hr hcovers => ?_, fun e he heq => ?_⟩
  · have hfirst := List.all_eq_true.mp hlate r hr
    rw [Nat.ble_eq] at hfirst
    have hbounds := CaseRun.bounds_of_covers hcovers
    omega
  · have hlater : lowerExpansions.all (fun e => Nat.ble 128 e.1) = true := by decide
    have hcode := List.all_eq_true.mp hlater e he
    rw [Nat.ble_eq] at hcode
    rw [beq_iff_eq] at heq
    omega

/-! ## Lowering a text -/

theorem toLower_of_capital {c : Char} (h : 65 ≤ c.toNat ∧ c.toNat ≤ 90) :
    c.toLower.toNat = c.toNat + 32 := by
  have hcapital : 'A'.val ≤ c.val ∧ c.val ≤ 'Z'.val := h
  have hlower : c.toLower.toNat = (c.val + 32).toNat := congrArg Char.toNat (dif_pos hcapital)
  rw [hlower, UInt32.toNat_add]
  show (c.toNat + 32) % 4294967296 = c.toNat + 32
  omega

theorem toLower_of_not_capital {c : Char} (h : ¬(65 ≤ c.toNat ∧ c.toNat ≤ 90)) : c.toLower = c :=
  dif_neg h

theorem isLowered_toLower {c : Char} (h : c.toNat < 128) : isLowered c.toLower.toNat = true := by
  by_cases hcapital : 65 ≤ c.toNat ∧ c.toNat ≤ 90
  · have htoNat := toLower_of_capital hcapital
    apply isLowered_of_lt <;> omega
  · rw [toLower_of_not_capital hcapital]
    exact isLowered_of_lt h hcapital

/-- Lowering one character gives characters in lower case, in whatever context. The cases are those
of the definition: the first block, the sigma, a run, an expansion, and what no table lists. -/
theorem isLowered_of_mem_lowerChar {before after : List Char} {c d : Char}
    (h : d ∈ lowerChar before c after) : isLowered d.toNat = true := by
  rw [lowerChar] at h
  split at h
  · rename_i hascii
    rw [List.mem_singleton.mp h]
    exact isLowered_toLower hascii
  · rename_i hascii
    split at h
    -- both small sigmas are in lower case
    · rw [List.mem_singleton.mp h, smallSigma]
      split <;> decide +kernel
    · rename_i hsigma
      rw [mapByTables] at h
      split at h
      · rename_i r hr
        rw [List.mem_singleton.mp h]
        have hcovers := List.find?_some hr
        exact isLowered_move (List.mem_of_find?_eq_some hr) hcovers
      · split at h
        · rename_i e he
          obtain ⟨n, hn, rfl⟩ := List.mem_map.mp h
          have hall := List.all_eq_true.mp isLowered_lowerExpansions e
            (List.mem_of_find?_eq_some he)
          exact List.all_eq_true.mp hall n hn
        -- no table lists the character, so it is kept and is no capital
        · rename_i hruns _ hexpansions
          rw [List.mem_singleton.mp h, isLowered_iff]
          refine ⟨by omega, fun heq => hsigma ?_, hruns, hexpansions⟩
          rw [capitalSigma, ← heq, Char.ofNat_toNat]

/-- **Lowering a text leaves nothing to lower.** -/
theorem isLowered_of_mem_lowerCase {s : String} {c : Char} (h : c ∈ (lowerCase s).toList) :
    isLowered c.toNat = true := by
  have hchars : ∀ (cs before : List Char), c ∈ lowerChars before cs → isLowered c.toNat = true := by
    intro cs
    induction cs with
    | nil =>
      intro before h
      cases h
    | cons d rest ih =>
      intro before h
      rcases List.mem_append.mp h with hfirst | hrest
      · exact isLowered_of_mem_lowerChar hfirst
      · exact ih _ hrest
  rw [lowerCase, String.toList_ofList] at h
  exact hchars _ _ h

theorem lowerChar_of_isLowered {c : Char} (h : isLowered c.toNat = true)
    (before after : List Char) :
    lowerChar before c after = [c] := by
  obtain ⟨hcapital, hsigma, hruns, hexpansions⟩ := isLowered_iff.mp h
  rw [lowerChar]
  split
  · rw [toLower_of_not_capital hcapital]
  · have hother : c ≠ capitalSigma := fun heq => hsigma (congrArg Char.toNat heq)
    rw [if_neg hother, mapByTables, hruns, hexpansions]

/-- **A text in lower case stays as it is.** -/
theorem lowerCase_of_isLowered {s : String} (h : ∀ c ∈ s.toList, isLowered c.toNat = true) :
    lowerCase s = s := by
  have hchars : ∀ (cs before : List Char), (∀ c ∈ cs, isLowered c.toNat = true) →
      lowerChars before cs = cs := by
    intro cs
    induction cs with
    | nil =>
      intro before _
      rfl
    | cons c rest ih =>
      intro before hall
      rw [lowerChars, lowerChar_of_isLowered (hall c List.mem_cons_self),
        ih _ fun d hd => hall d (List.mem_cons_of_mem c hd)]
      rfl
  rw [lowerCase, hchars _ _ h, String.ofList_toList]

/-! ## Folded case -/

theorem foldChar_ne_nil (c : Char) : foldChar c ≠ [] := by
  have htable : foldExpansions.all (fun e => !(e.2.isEmpty)) = true := by decide +kernel
  rw [foldChar]
  split
  · exact List.cons_ne_nil _ _
  · rw [mapByTables]
    split
    · exact List.cons_ne_nil _ _
    · split
      · rename_i e he
        have hlong := List.all_eq_true.mp htable e (List.mem_of_find?_eq_some he)
        simpa using hlong
      · exact List.cons_ne_nil _ _

/-- **Only the empty text has an empty folded form.** -/
theorem caseFold_eq_empty_iff {s : String} : caseFold s = "" ↔ s = "" := by
  constructor
  · intro h
    have hchars : s.toList.flatMap foldChar = [] := by
      have := congrArg String.toList h
      rwa [caseFold, String.toList_ofList] at this
    cases hs : s.toList with
    | nil => exact String.toList_inj.mp hs
    | cons c rest =>
      rw [hs, List.flatMap_cons, List.append_eq_nil_iff] at hchars
      exact absurd hchars.1 (foldChar_ne_nil c)
  · intro h
    subst h
    rfl

end SyntaxForest.Text
