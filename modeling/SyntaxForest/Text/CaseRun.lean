/-!
Tables of characters: ranges of a property and runs of a case mapping.

A case mapping sends most alphabets to a copy of themselves at a fixed distance, either whole blocks
or every second character. A `CaseRun` states one such piece. The few characters that map to several
are listed one by one.
-/

namespace SyntaxForest.Text

/-- Membership of a character in a list of inclusive code point ranges. -/
def inRanges (ranges : List (Nat × Nat)) (c : Char) : Bool :=
  ranges.any fun r => r.1 ≤ c.toNat && c.toNat ≤ r.2

/-- The code points `first, first + stride, ..., last`, each moved by `shift`. -/
structure CaseRun where
  first : Nat
  last : Nat
  stride : Nat
  shift : Int

namespace CaseRun

/-- The run moves this code point. -/
def covers (r : CaseRun) (n : Nat) : Bool :=
  r.first ≤ n && n ≤ r.last && (n - r.first) % r.stride == 0

/-- Where the run moves a code point it covers. -/
def move (r : CaseRun) (n : Nat) : Nat := (Int.ofNat n + r.shift).toNat

end CaseRun

/-- The image of a character under a mapping given by runs and by expansions into several. -/
def mapByTables (runs : List CaseRun) (expansions : List (Nat × List Nat)) (c : Char) : List Char :=
  match runs.find? (·.covers c.toNat) with
  | some r => [Char.ofNat (r.move c.toNat)]
  | none =>
    match expansions.find? (·.1 == c.toNat) with
    | some e => e.2.map Char.ofNat
    | none => [c]

end SyntaxForest.Text
