import SyntaxForest.Data.Datum

/-!
Reading and writing plain data as JSON text.

The text written is a single line in ASCII: a comma and a colon are each followed by one space, and
every character from outside the printable ASCII range is written as one or two four-digit escapes
of its UTF-16 units, a half of a character as its one unit. A fault is written as the text of its
message, and bytes as they are shown.

A number is read as an integer unless it has a point or an exponent; what is infinite or no number
is read by the words that are written for it. Of equal names in one record the last value counts, at
the place of the first.
-/

namespace SyntaxForest.Json

open SyntaxForest

/-! ### Writing -/

/-- A four-digit escape of a UTF-16 unit. -/
def unitEscape (unit : Nat) : List Char := '\\' :: 'u' :: Text.hexDigits 4 unit

/-- The UTF-16 units of a code point. -/
def utf16Units (n : Nat) : List Nat :=
  if n < 0x10000 then [n]
  else [0xD800 + (n - 0x10000) / 0x400, 0xDC00 + (n - 0x10000) % 0x400]

/-- How one character is written inside a JSON string. -/
def escapeChar (c : Char) : List Char :=
  if c = '"' then ['\\', '"']
  else if c = '\\' then ['\\', '\\']
  else if c = '\n' then ['\\', 'n']
  else if c = '\r' then ['\\', 'r']
  else if c = '\t' then ['\\', 't']
  else if c.toNat = 8 then ['\\', 'b']
  else if c.toNat = 12 then ['\\', 'f']
  else if 32 ≤ c.toNat && c.toNat ≤ 126 then [c]
  else (utf16Units c.toNat).flatMap unitEscape

/-- How a code point, that of a character or a half, is written inside a JSON string. -/
def escapeCode (code : Nat) : List Char :=
  if WideText.isHalf code then unitEscape code else escapeChar (Char.ofNat code)

def writeText (s : String) : String := String.ofList ('"' :: s.toList.flatMap escapeChar ++ ['"'])

def writeWide (w : WideText) : String := String.ofList ('"' :: w.codes.flatMap escapeCode ++ ['"'])

def numberWords : Decimal.SpecialWords := { nan := "NaN", infinity := "Infinity" }

mutual

/-- The JSON text of a value. -/
def write : Datum → String
  | .null => "null"
  | .bool true => "true"
  | .bool false => "false"
  | .int n => toString n
  | .float x => Decimal.text numberWords x
  | .text s => writeText s
  | .wide w => writeWide w
  | .list items => "[" ++ ", ".intercalate (writeItems items) ++ "]"
  | .record fields => "\x7b" ++ ", ".intercalate (writeFields fields) ++ "\x7d"
  | .bytes bs => writeText (Text.quotedBytes bs)
  | .fault f => writeText f.text

def writeItems : List Datum → List String
  | [] => []
  | d :: rest => write d :: writeItems rest

def writeFields : List (String × Datum) → List String
  | [] => []
  | (name, d) :: rest => (writeText name ++ ": " ++ write d) :: writeFields rest

end

/-! ### Reading -/

def isWhite (c : Char) : Bool := c = ' ' || c = '\n' || c = '\r' || c = '\t'

def skipWhite (cs : List Char) : List Char := cs.dropWhile isWhite

def hexValue? (c : Char) : Option Nat :=
  if '0' ≤ c && c ≤ '9' then some (c.toNat - 48)
  else if 'a' ≤ c && c ≤ 'f' then some (c.toNat - 87)
  else if 'A' ≤ c && c ≤ 'F' then some (c.toNat - 55)
  else none

/-- The number that exactly `digits` hexadecimal digits spell, and what follows them. -/
def readHex? : Nat → Nat → List Char → Option (Nat × List Char)
  | 0, acc, cs => some (acc, cs)
  | digits + 1, acc, c :: cs =>
    match hexValue? c with
    | some v => readHex? digits (acc * 16 + v) cs
    | none => none
  | _ + 1, _, [] => none

/-- The character whose first half was read, if the escape of a second half follows. -/
def joinHalves? (high : Nat) (cs : List Char) : Option (Nat × List Char) :=
  match cs with
  | '\\' :: 'u' :: rest =>
    match readHex? 4 0 rest with
    | some (low, after) =>
      if 0xDC00 ≤ low && low < 0xE000 then
        some (0x10000 + (high - 0xD800) * 0x400 + (low - 0xDC00), after)
      else none
    | none => none
  | _ => none

/-- The code point of a four-digit escape, and what follows it. -/
def readUnit? (cs : List Char) : Option (Nat × List Char) :=
  match readHex? 4 0 cs with
  | some (n, rest) =>
    if 0xD800 ≤ n && n < 0xDC00 then
      match joinHalves? n rest with
      | some joined => some joined
      | none => some (n, rest)
    else some (n, rest)
  | none => none

def simpleEscape? (c : Char) : Option Char :=
  if c = '"' || c = '\\' || c = '/' then some c
  else if c = 'n' then some '\n'
  else if c = 't' then some '\t'
  else if c = 'r' then some '\r'
  else if c = 'b' then some (Char.ofNat 8)
  else if c = 'f' then some (Char.ofNat 12)
  else none

/-- The spelling of the characters up to the closing quote, reversed in front of `acc`, and what
follows it. -/
def readChars : Nat → List Char → List Char → Option (WideText × List Char)
  | 0, _, _ => none
  | _ + 1, _, [] => none
  | _ + 1, acc, '"' :: rest => some (⟨String.ofList acc.reverse⟩, rest)
  | fuel + 1, acc, '\\' :: 'u' :: rest =>
    match readUnit? rest with
    | some (code, after) => readChars fuel ((WideText.spell code).reverse ++ acc) after
    | none => none
  | fuel + 1, acc, '\\' :: c :: rest =>
    match simpleEscape? c with
    | some e => readChars fuel (e :: acc) rest
    | none => none
  | fuel + 1, acc, c :: rest => readChars fuel (WideText.spell c.toNat ++ acc) rest

def digitsValue (cs : List Char) : Nat := cs.foldl (fun n c => n * 10 + (c.toNat - 48)) 0

/-- Numbers whose first digit stands further from the point than this are zero or infinite as
doubles. -/
def magnitudeLimit : Int := 400

/-- The double nearest to `± coefficient · 10 ^ exponent`. -/
def nearestDouble (negative : Bool) (coefficient : Nat) (exponent : Int) : Float :=
  let magnitude := exponent + Int.ofNat (Nat.toDigits 10 coefficient).length
  let x :=
    if coefficient = 0 || magnitude < -magnitudeLimit then 0.0
    else if magnitudeLimit < magnitude then 1.0 / 0.0
    else Float.ofScientific coefficient (decide (exponent < 0)) exponent.natAbs
  if negative then -x else x

/-- The exponent part of a number, if there is one. -/
def readExponent (cs : List Char) : Option (Int × List Char) :=
  match cs with
  | c :: rest =>
    if c = 'e' || c = 'E' then
      let (negative, digits) :=
        match rest with
        | '-' :: r => (true, r)
        | '+' :: r => (false, r)
        | r => (false, r)
      let ds := digits.takeWhile Char.isDigit
      if ds.isEmpty then none
      else
        let n := Int.ofNat (digitsValue ds)
        some (if negative then -n else n, digits.dropWhile Char.isDigit)
    else none
  | [] => none

/-- The fraction digits after a point, if there are any. -/
def readFraction (cs : List Char) : Option (List Char × List Char) :=
  match cs with
  | '.' :: rest =>
    let ds := rest.takeWhile Char.isDigit
    if ds.isEmpty then none else some (ds, rest.dropWhile Char.isDigit)
  | _ => none

/-- A number without its sign. -/
def readMagnitude (negative : Bool) (cs : List Char) : Option (Datum × List Char) :=
  let whole := cs.takeWhile Char.isDigit
  let afterWhole := cs.dropWhile Char.isDigit
  if whole.isEmpty then none
  else
    let fraction := readFraction afterWhole
    let afterFraction := (fraction.map (·.2)).getD afterWhole
    let exponent := readExponent afterFraction
    if fraction.isNone && exponent.isNone then
      let n := Int.ofNat (digitsValue whole)
      some (.int (if negative then -n else n), afterWhole)
    else
      let ds := (fraction.map (·.1)).getD []
      let e := (exponent.map (·.1)).getD 0 - Int.ofNat ds.length
      let rest := (exponent.map (·.2)).getD afterFraction
      some (.float (nearestDouble negative (digitsValue (whole ++ ds)) e), rest)

def infinity : Float := 1.0 / 0.0

/-- A number or one of the words for values and for the numbers without digits. -/
def readScalar (cs : List Char) : Option (Datum × List Char) :=
  match cs with
  | 'n' :: 'u' :: 'l' :: 'l' :: rest => some (.null, rest)
  | 't' :: 'r' :: 'u' :: 'e' :: rest => some (.bool true, rest)
  | 'f' :: 'a' :: 'l' :: 's' :: 'e' :: rest => some (.bool false, rest)
  | 'N' :: 'a' :: 'N' :: rest => some (.float (0.0 / 0.0), rest)
  | 'I' :: 'n' :: 'f' :: 'i' :: 'n' :: 'i' :: 't' :: 'y' :: rest => some (.float infinity, rest)
  | '-' :: 'I' :: 'n' :: 'f' :: 'i' :: 'n' :: 'i' :: 't' :: 'y' :: rest =>
    some (.float (-infinity), rest)
  | '-' :: rest => readMagnitude true rest
  | rest => readMagnitude false rest

mutual

/-- The value at the beginning of a text, and what follows it. -/
def readValue : Nat → List Char → Option (Datum × List Char)
  | 0, _ => none
  | fuel + 1, cs =>
    match skipWhite cs with
    | '"' :: rest =>
      (readChars fuel [] rest).map fun r => (.ofWide r.1, r.2)
    | '[' :: rest =>
      match skipWhite rest with
      | ']' :: after => some (.list [], after)
      | items => (readItems fuel [] items).map fun r => (.list r.1, r.2)
    | '\x7b' :: rest =>
      match skipWhite rest with
      | '\x7d' :: after => some (.record [], after)
      | fields => (readFields fuel [] fields).map fun r => (.record (Assoc.ofEntries r.1), r.2)
    | scalar => readScalar scalar

/-- The items of a list up to its closing bracket. -/
def readItems : Nat → List Datum → List Char → Option (List Datum × List Char)
  | 0, _, _ => none
  | fuel + 1, acc, cs =>
    match readValue fuel cs with
    | some (d, rest) =>
      match skipWhite rest with
      | ',' :: after => readItems fuel (d :: acc) after
      | ']' :: after => some ((d :: acc).reverse, after)
      | _ => none
    | none => none

/-- The fields of a record up to its closing brace. -/
def readFields : Nat → List (String × Datum) → List Char →
    Option (List (String × Datum) × List Char)
  | 0, _, _ => none
  | fuel + 1, acc, cs =>
    match skipWhite cs with
    | '"' :: rest =>
      match readChars fuel [] rest with
      | some (name, afterName) =>
        match skipWhite afterName with
        | ':' :: afterColon =>
          match readValue fuel afterColon with
          | some (d, afterValue) =>
            let acc := (name.legible, d) :: acc
            match skipWhite afterValue with
            | ',' :: after => readFields fuel acc after
            | '\x7d' :: after => some (acc.reverse, after)
            | _ => none
          | none => none
        | _ => none
      | none => none
    | _ => none

end

/-- The value that a whole text spells. -/
def read? (s : String) : Option Datum :=
  let cs := s.toList
  match readValue (2 * cs.length + 2) cs with
  | some (d, rest) => if (skipWhite rest).isEmpty then some d else none
  | none => none

end SyntaxForest.Json
