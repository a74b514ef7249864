import SyntaxForest.Fault

/-!
From byte offsets to character offsets.

A scanner that reads UTF-8 counts bytes; everything else here counts characters. The table of a text
gives, for every byte, the character it belongs to, and one more entry for the end of the text. A
text with as many bytes as characters needs no table.
-/

namespace SyntaxForest.ByteOffsets

/-- The character of every byte, where the first character has number `index`, and the end. -/
def tableFrom (index : Nat) : List Char → List Nat
  | [] => [index]
  | c :: rest => List.replicate c.utf8Size index ++ tableFrom (index + 1) rest

/-- How many bytes encode some characters. -/
def byteSize (cs : List Char) : Nat := (String.ofList cs).utf8ByteSize

/-- The table of a text, unless byte and character offsets coincide. -/
def table? (cs : List Char) : Option (List Nat) :=
  if byteSize cs = cs.length then none else some (tableFrom 0 cs)

/-- The character offset of a byte offset. With a table, an offset past the end is taken for the
end. -/
def toChar (table : Option (List Nat)) (byte : Nat) : Nat :=
  match table with
  | none => byte
  | some entries => entries.getD (min byte (entries.length - 1)) 0

/-- The character offset of a byte offset that may be negative. Without a table it stays as it is;
with one it counts entries from the end of the table. -/
def toCharSigned (table : Option (List Nat)) (byte : Int) : Except Fault Int :=
  if 0 ≤ byte then .ok (Int.ofNat (toChar table byte.toNat))
  else
    match table with
    | none => .ok byte
    | some entries =>
      if byte.natAbs ≤ entries.length then
        .ok (Int.ofNat (entries.getD (entries.length - byte.natAbs) 0))
      else .error (.badPlace)

end SyntaxForest.ByteOffsets
