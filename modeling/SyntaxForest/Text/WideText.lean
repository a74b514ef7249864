/-!
Texts that can hold halves of characters.

A code point from outside the first plane is written in UTF-16 as two units, a half each. An escape
can name such a half alone, though it is no character, and the text that it stands in is then no
`String`. A `WideText` is spelled by a `String` in which a mark stands in front of every half, and
in front of every character that is the mark itself; so every sequence of code points has one
spelling, and what works on characters one by one can work on spellings.
-/

namespace SyntaxForest

/-- A text of characters and halves of characters. -/
structure WideText where
  spelling : String
deriving DecidableEq, Repr, Inhabited

namespace WideText

/-- What stands in front of a half. -/
def mark : Char := Char.ofNat 0x10FFFF

/-- How far above its code point a half is spelled. -/
def shift : Nat := 0x100000

def isHalf (code : Nat) : Bool := 0xD800 ≤ code && code < 0xE000

/-- The spelling of one code point. -/
def spell (code : Nat) : List Char :=
  if isHalf code then [mark, Char.ofNat (code + shift)]
  else if code = mark.toNat then [mark, mark]
  else [Char.ofNat code]

/-- The text with these code points. -/
def ofCodes (codes : List Nat) : WideText := ⟨String.ofList (codes.flatMap spell)⟩

/-- A text without halves. -/
def ofText (s : String) : WideText := ofCodes (s.toList.map Char.toNat)

instance : Coe String WideText := ⟨ofText⟩

instance : Append WideText := ⟨fun v w => ⟨v.spelling ++ w.spelling⟩⟩

/-- The code points that a spelling stands for, behind those read so far, of which the last stands
first. -/
def codesFrom (found : List Nat) : List Char → List Nat
  | [] => found.reverse
  | [c] => (c.toNat :: found).reverse
  | c :: d :: rest =>
    if c ≠ mark then codesFrom (c.toNat :: found) (d :: rest)
    else codesFrom ((if d = mark then mark.toNat else d.toNat - shift) :: found) rest

/-- The code points of a text. -/
def codes (w : WideText) : List Nat := codesFrom [] w.spelling.toList

/-- The text, if it holds no half. -/
def text? (w : WideText) : Option String :=
  if !w.spelling.contains mark then some w.spelling
  else
    let codes := w.codes
    if codes.any isHalf then none else some (String.ofList (codes.map Char.ofNat))

/-- What is shown where a half cannot be. -/
def replacement : Nat := 0xFFFD

/-- The text with its halves replaced. -/
def legible (w : WideText) : String :=
  String.ofList (w.codes.map fun code => Char.ofNat (if isHalf code then replacement else code))

/-- The text after a change of its spelling that leaves marks and what they stand in front of
alone. -/
def respell (change : String → String) (w : WideText) : WideText := ⟨change w.spelling⟩

example : (ofCodes [0xD83D, 0x41]).codes = [0xD83D, 0x41] := by decide

example : (ofCodes [0x10FFFF, 0x10D83D]).codes = [0x10FFFF, 0x10D83D] := by decide

end WideText

end SyntaxForest
