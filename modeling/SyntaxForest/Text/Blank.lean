import SyntaxForest.Text.CaseRun

/-!
Blank characters, trimming and splitting into words.

A text is a sequence of code points. Blank are the ASCII controls that move or separate, the space,
and the space and separator characters of Unicode; a zero-width space is not blank. Numbers and
flags written as text are trimmed with the narrower class `isSpace`, which leaves out the four
information separators.
-/

namespace SyntaxForest.Text

/-- The blank code points. -/
def blankRanges : List (Nat × Nat) :=
  [(9, 13), (28, 32), (133, 133), (160, 160), (5760, 5760), (8192, 8202), (8232, 8233),
   (8239, 8239), (8287, 8287), (12288, 12288)]

/-- Characters that separate words. -/
def isBlank (c : Char) : Bool := inRanges blankRanges c

/-- Blank characters other than the information separators `U+001C` to `U+001F`. -/
def isSpace (c : Char) : Bool := isBlank c && !(28 ≤ c.toNat && c.toNat ≤ 31)

/-- The list without the elements at its two ends that satisfy `p`. -/
def trimBy (p : Char → Bool) (cs : List Char) : List Char :=
  ((cs.dropWhile p).reverse.dropWhile p).reverse

/-- The text without blanks at its ends. -/
def trim (s : String) : String := String.ofList (trimBy isBlank s.toList)

/-- A finished word, unless it is empty. -/
def wordOf (reversed : List Char) : List (List Char) :=
  if reversed.isEmpty then [] else [reversed.reverse]

/-- The maximal blank-free stretches, where `current` is the reversed beginning of the first one. -/
def wordsFrom (current : List Char) : List Char → List (List Char)
  | [] => wordOf current
  | c :: rest =>
    if isBlank c then wordOf current ++ wordsFrom [] rest else wordsFrom (c :: current) rest

/-- The words of a text: its maximal stretches without blanks, in order. -/
def words (s : String) : List String := (wordsFrom [] s.toList).map String.ofList

/-- The words of a text with one space between them. -/
def unwrap (s : String) : String := " ".intercalate (words s)

/-- The pieces between separators, at least one. -/
def splitAt (separator : Char) : List Char → List (List Char)
  | [] => [[]]
  | c :: rest =>
    if c = separator then [] :: splitAt separator rest
    else
      match splitAt separator rest with
      | [] => [[c]]
      | first :: others => (c :: first) :: others

/-- The pieces of a text between separators; a text without one is its own single piece. -/
def pieces (separator : Char) (s : String) : List String :=
  (splitAt separator s.toList).map String.ofList

end SyntaxForest.Text
