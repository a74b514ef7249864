import SyntaxForest.Data.Json
import SyntaxForest.Text.Digit
import SyntaxForest.Text.LetterCase
import SyntaxForest.Yaml.Node

/-!
The values that scalars stand for.

The tag of a scalar tells which value its text spells. A tag can also be written before text that
does not spell a value of that kind; that is a fault. The characters that numbers are read from are
those of a text's spelling, in which a half of a character is none that a number can have.
-/

namespace SyntaxForest.Yaml

open SyntaxForest

/-- A value that can name an entry. -/
inductive Atom where
  | null
  | bool (value : Bool)
  | int (value : Int)
  | float (value : Float)
  /-- What is no number, told apart by the node that spells it: it is equal to itself alone. -/
  | nan (node : NodeRef)
  | text (value : WideText)
  | moment (value : Moment)
  | bytes (value : List UInt8)

namespace Atom

/-! ### Integers -/

def digitValue? (base : Nat) (c : Char) : Option Nat :=
  let v := if c.isDigit then some (c.toNat - 48)
    else if 'a' ≤ c && c ≤ 'z' then some (c.toNat - 87)
    else if 'A' ≤ c && c ≤ 'Z' then some (c.toNat - 55)
    else none
  v.filter (· < base)

/-- The value of digits in a base. -/
def digitsValue (base : Nat) (cs : List Char) : Nat :=
  cs.foldl (fun n c => n * base + (digitValue? base c).getD 0) 0

/-- The number's text without the sign of its base, a letter after a zero. -/
def withoutBase (base : Nat) (cs : List Char) : List Char :=
  match cs with
  | '0' :: c :: rest =>
    if (base = 16 && c.toLower = 'x') || (base = 8 && c.toLower = 'o')
      || (base = 2 && c.toLower = 'b')
    then rest else cs
  | _ => cs

/-- How much of a refused text a message shows, with its quotes. -/
def shownLength : Nat := 200

/-- The integer that a text spells in a base. It may have blanks around it, a sign, and the sign of
its base; its digits may be those of any script. -/
def integerIn (base : Nat) (cs : List Char) : Except Fault Int :=
  let trimmed := Text.trimBy Text.isSpace (cs.map Text.asciiDigit)
  let plain := withoutBase base (unsigned trimmed)
  let digits := plain.takeWhile fun c => (digitValue? base c).isSome
  if base = 10 && Fault.digitLimit < digits.length then .error (.tooLongInteger digits.length)
  else if digits.isEmpty || digits.length < plain.length then
    .error (.badValue
      (s!"invalid literal for int() with base {base}: "
        ++ String.ofList ((WideText.quoted ⟨String.ofList cs⟩).toList.take shownLength)))
  else
    let n := Int.ofNat (digitsValue base digits)
    .ok (if trimmed.head? = some '-' then -n else n)

/-- The value of numbers that count sixtieths of each other, the last first. -/
def inSixtieths (parts : List Int) : Int := parts.foldr (fun part total => part + 60 * total) 0

/-- The integer that a text without underscores and sign spells. -/
def magnitude (cs : List Char) : Except Fault Int :=
  match cs with
  | ['0'] => .ok 0
  | '0' :: 'b' :: rest => integerIn 2 rest
  | '0' :: 'x' :: rest => integerIn 16 rest
  | '0' :: rest => integerIn 8 ('0' :: rest)
  | _ =>
    if cs.contains ':' then
      ((Text.splitAt ':' cs).mapM (integerIn 10)).map fun parts => inSixtieths parts.reverse
    else integerIn 10 cs

/-- There is no first character. -/
def emptyText : Fault := .ofText .badIndex "string index out of range"

def readInteger (text : WideText) : Except Fault Atom :=
  let cs := text.spelling.toList.filter (· ≠ '_')
  if (unsigned cs).isEmpty then .error emptyText
  else (magnitude (unsigned cs)).map fun n => .int (if cs.head? = some '-' then -n else n)

/-! ### Decimals -/

/-- The double that a text spells, with blanks around it and a sign; its digits may be those of any
script. -/
def double? (cs : List Char) : Option Float :=
  let trimmed := Text.trimBy Text.isSpace (cs.map Text.asciiDigit)
  let negative := trimmed.head? = some '-'
  let plain := unsigned trimmed
  let whole := plain.takeWhile Char.isDigit
  let (fraction, rest) := match plain.dropWhile Char.isDigit with
    | '.' :: rest => (rest.takeWhile Char.isDigit, rest.dropWhile Char.isDigit)
    | rest => ([], rest)
  let exponent := if rest.isEmpty then some (0, []) else Json.readExponent rest
  let word := String.ofList (plain.map Char.toLower)
  if word = "inf" || word = "infinity" then some
    (if negative then -Json.infinity else Json.infinity)
  else if word = "nan" then some (0.0 / 0.0)
  else if whole.isEmpty && fraction.isEmpty then none
  else
    match exponent with
    | some (e, []) =>
      some (Json.nearestDouble negative (Json.digitsValue (whole ++ fraction))
        (e - Int.ofNat fraction.length))
    | _ => none

def double (cs : List Char) : Except Fault Float :=
  match double? cs with
  | some x => .ok x
  | none =>
    .error (.badValue ("could not convert string to float: " ++ WideText.quoted ⟨String.ofList cs⟩))

/-- The value of doubles that count sixtieths of each other, the last first; `base` is what the
first one counts, which has to be a double itself. -/
def sumSixtieths (total : Float) (base : Nat) : List Float → Except Fault Float
  | [] => .ok total
  | x :: rest =>
    if (Float.ofNat base).isInf then .error .beyondFloat
    else sumSixtieths (total + x * Float.ofNat base) (base * 60) rest

/-- A double, or what is no number at its node. -/
def ofDouble (node : NodeRef) (x : Float) : Atom := if x.isNaN then nan node else float x

def readDecimal (node : NodeRef) (text : WideText) : Except Fault Atom := do
  let cs := (Text.lowerCase text.spelling).toList.filter (· ≠ '_')
  if cs.isEmpty then throw emptyText
  let plain := unsigned cs
  let x ←
    if plain = ".inf".toList then pure Json.infinity
    else if plain = ".nan".toList then pure (0.0 / 0.0)
    else if plain.contains ':' then do
      let parts ← (Text.splitAt ':' plain).mapM double
      sumSixtieths 0.0 1 parts.reverse
    else double plain
  return ofDouble node (if cs.head? = some '-' then -x else x)

/-! ### Other scalars -/

def readBool (text : WideText) : Except Fault Atom :=
  let word := text.respell Text.lowerCase
  if trueWords.contains word.spelling then .ok (.bool true)
  else if falseWords.contains word.spelling then .ok (.bool false)
  else .error (.ofWide .badKey word)

def readMoment (text : WideText) : Except Fault Atom :=
  match Moment.read? 1 text.spelling.toList with
  | some m => m.check.map .moment
  | none => .error (.ofText .noAttribute "the text is no date")

/-- The value of a character of base sixty-four. -/
def sextet? (c : Char) : Option Nat :=
  if 'A' ≤ c && c ≤ 'Z' then some (c.toNat - 65)
  else if 'a' ≤ c && c ≤ 'z' then some (c.toNat - 71)
  else if c.isDigit then some (c.toNat + 4)
  else if c = '+' then some 62
  else if c = '/' then some 63
  else none

/-- Collects sextets into bytes; `left` holds `count` sextets that do not make a byte yet. Other
characters do not count, and padding after enough sextets ends the data. -/
def bytesFrom (left count pads : Nat) (acc : List UInt8) :
    List Char → Except String (List UInt8)
  | [] =>
    if count = 0 then .ok acc.reverse
    else if count = 1 then
      .error
        (s!"Invalid base64-encoded string: number of data characters ({acc.length / 3 * 4 + 1}) "
        ++ "cannot be 1 more than a multiple of 4")
    else .error "Incorrect padding"
  | c :: rest =>
    if c = '=' then
      if 2 ≤ count && 4 ≤ count + pads + 1 then .ok acc.reverse
      else bytesFrom left count (if 2 ≤ count then pads + 1 else pads) acc rest
    else
      match sextet? c with
      | none => bytesFrom left count pads acc rest
      | some v =>
        if count = 0 then bytesFrom v 1 0 acc rest
        else if count = 1 then
          bytesFrom (v % 16) 2 0 ((left * 4 + v / 16).toUInt8 :: acc) rest
        else if count = 2 then
          bytesFrom (v % 4) 3 0 ((left * 16 + v / 4).toUInt8 :: acc) rest
        else bytesFrom 0 0 0 ((left * 64 + v).toUInt8 :: acc) rest

/-- Why a text that is not all ASCII is refused: the first run of other characters in it. -/
def notAscii? (text : WideText) : Option String :=
  let codes := text.codes
  let others := codes.dropWhile (· < 128)
  let position := codes.length - others.length
  match others, (others.takeWhile (128 ≤ ·)).length with
  | [], _ => none
  | code :: _, 1 =>
    some ("character '" ++ String.ofList (Text.codeEscape code) ++ s!"' in position {position}")
  | _, n => some s!"characters in position {position}-{position + n - 1}"

/-- The bytes that a text spells in base sixty-four. -/
def readBytes (mark : Mark) (text : WideText) : Except Failure Atom :=
  match notAscii? text with
  | some which =>
    .error (.plain ("failed to convert base64 data into ascii: 'ascii' codec can't encode "
      ++ which ++ ": ordinal not in range(128)") mark)
  | none =>
    match bytesFrom 0 0 0 [] text.spelling.toList with
    | .ok data => .ok (.bytes data)
    | .error problem => .error (.plain ("failed to decode base64 data: " ++ problem) mark)

/-! ### Showing and comparing -/

def isGiven : Atom → Bool
  | null => false
  | bool b => b
  | int n => n ≠ 0
  | float x => x != 0.0
  | nan _ => true
  | text w => w.spelling ≠ ""
  | moment _ => true
  | bytes bs => !bs.isEmpty

/-- What is no number as a plain value. -/
def notANumber : Datum := .float (0.0 / 0.0)

/-- An integer as text, unless it has too many digits. -/
def shownInteger (n : Int) : Except Fault String :=
  if Fault.digitLimit < (Nat.toDigits 10 n.natAbs).length then .error (.tooManyDigits "")
  else .ok (Datum.int n).shown

/-- The value as text. -/
def shown : Atom → Except Fault WideText
  | null => .ok Datum.null.shown
  | bool b => .ok (Datum.bool b).shown
  | int n => (shownInteger n).map .ofText
  | float x => .ok (Datum.float x).shown
  | nan _ => .ok notANumber.shown
  | text w => .ok w
  | moment m => .ok m.shown
  | bytes bs => .ok (Datum.bytes bs).shown

/-- The number that a value counts as when values are compared. -/
def number? : Atom → Option Datum
  | bool b => some (.int (if b then 1 else 0))
  | int n => some (.int n)
  | float x =>
    match (Decimal.Binary64.ofFloat x).toInt? with
    | some n => some (.int n)
    | none => some (.float x)
  | _ => none

/-- Values that name the same entry. Numbers do if they are equal, whatever their kind. -/
def same (a b : Atom) : Bool :=
  match a.number?, b.number? with
  | some (.int m), some (.int n) => m = n
  | some (.float x), some (.float y) => x == y
  | some _, _ => false
  | none, some _ => false
  | none, none =>
    match a, b with
    | null, null => true
    | nan m, nan n => m = n
    | text s, text t => s = t
    | moment m, moment n => m.same n
    | bytes xs, bytes ys => xs = ys
    | _, _ => false

/-- The plain value, if there is one. -/
def datum? : Atom → Option Datum
  | null => some .null
  | bool b => some (.bool b)
  | int n => some (.int n)
  | float x => some (.float x)
  | nan _ => some notANumber
  | text w => some (.ofWide w)
  | moment _ => none
  | bytes bs => some (.bytes bs)

/-! ### Scalars by their tags -/

/-- How the text of a scalar is read, by the tag of its node. -/
def read? (tag : String) (node : NodeRef) (mark : Mark) (text : WideText) :
    Option (Except Failure Atom) :=
  let checked (r : Except Fault Atom) : Option (Except Failure Atom) := some (r.mapError .fault)
  if tag = textTag then some (.ok (.text text))
  else if tag = coreTag "null" then some (.ok .null)
  else if tag = coreTag "bool" then checked (readBool text)
  else if tag = coreTag "int" then checked (readInteger text)
  else if tag = coreTag "float" then checked (readDecimal node text)
  else if tag = coreTag "timestamp" then checked (readMoment text)
  else if tag = coreTag "binary" then some (readBytes mark text)
  else none

end Atom

end SyntaxForest.Yaml
