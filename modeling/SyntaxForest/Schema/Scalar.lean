import SyntaxForest.Schema.Checked
import SyntaxForest.Text.Blank
import SyntaxForest.Text.LetterCase
import SyntaxForest.Text.Utf8

/-!
The values that a field of a scalar type accepts.

An integer may be given as an integer, a truth value, a number without fraction, or a text that
spells one. A truth value may be given as `0` or `1` or as one of a few words. A text must be a
text.
-/

namespace SyntaxForest.Schema

open SyntaxForest

/-! ### Integers -/

/-- What a text says as an integer. -/
inductive IntegerText where
  | value (n : Int)
  | tooLong
  | unreadable
deriving DecidableEq, Repr

namespace IntegerText

/-- The most digits that an integer's text may have. -/
def maxDigits : Nat := 4300

def isLeadDigit (c : Char) : Bool := c.isDigit && c ≠ '0'

/-- Reads an integer without a sign: a zero alone, or digits that do not begin with one. Too many
digits are noticed before what follows them. -/
def readUnsigned (cs : List Char) : IntegerText :=
  if cs = ['0'] then value 0
  else if !cs.head?.any isLeadDigit then unreadable
  else
    let digits := cs.takeWhile Char.isDigit
    if maxDigits < digits.length then tooLong
    else if digits.length < cs.length then unreadable
    else value (Int.ofNat (digits.foldl (fun n c => n * 10 + (c.toNat - 48)) 0))

/-- Reads an integer in its plain form, a minus sign at most in front of the digits. -/
def readPlain : List Char → IntegerText
  | '-' :: rest =>
    match readUnsigned rest with
    | value n => value (-n)
    | other => other
  | cs => readUnsigned cs

/-- What is left of a number that begins with `zero` and goes on with `cs` when its leading zeros
and the underscores among them are dropped. A zero before a point or at the end stays. -/
def dropZeros? (zero : Char) : List Char → Option (List Char)
  | [] => some [zero]
  | c :: rest =>
    if c = '0' || c = '_' then dropZeros? c rest
    else if isLeadDigit c || c = '-' then some (c :: rest)
    else if c = '.' then some (zero :: c :: rest)
    else none

/-- A number without its leading zeros, if it begins like one. -/
def withoutZeros? : List Char → Option (List Char)
  | [] => none
  | c :: rest =>
    if c = '0' then dropZeros? c rest
    else if isLeadDigit c || c = '-' then some (c :: rest)
    else none

/-- The text before a point that only zeros follow, at least one. -/
def withoutFraction (cs : List Char) : List Char :=
  let fraction := cs.dropWhile (· ≠ '.')
  if 2 ≤ fraction.length && fraction.tail.all (· == '0') then cs.takeWhile (· ≠ '.') else cs

/-- Two underscores stand side by side. -/
def hasDoubleUnderscore : List Char → Bool
  | '_' :: '_' :: _ => true
  | _ :: rest => hasDoubleUnderscore rest
  | [] => false

/-- The text without the underscores that stand alone between other characters. If one does not,
they all stay. -/
def withoutUnderscores (cs : List Char) : List Char :=
  if cs.head? = some '_' || cs.getLast? = some '_' || hasDoubleUnderscore cs then cs
  else cs.filter (· ≠ '_')

/-- The text without a plus sign in front, unless a minus sign follows it. -/
def withoutPlus? : List Char → Option (List Char)
  | '+' :: '-' :: _ => none
  | '+' :: rest => some rest
  | cs => some cs

/-- The plain form of a text: without blanks around it, a plus sign, leading zeros, a fraction of
zeros, and underscores between digits. -/
def plainForm? (cs : List Char) : Option (List Char) := do
  let clean := fun digits => (withoutZeros? digits).map fun ds =>
    withoutUnderscores (withoutFraction ds)
  match ← withoutPlus? (Text.trimBy Text.isSpace cs) with
  | '-' :: rest => (clean rest).map ('-' :: ·)
  | rest => clean rest

/-- The integer that the plain form of a text spells. Nothing is said about how long it is if there
is none. -/
def readClean (cs : List Char) : IntegerText :=
  match (plainForm? cs).map readPlain with
  | some (value n) => value n
  | _ => unreadable

/-- Reads an integer's text, as it is if that is possible, in its plain form otherwise. -/
def read (s : String) : IntegerText :=
  match readPlain s.toList with
  | unreadable => readClean s.toList
  | other => other

end IntegerText

/-- An integer that is too large for the way in which it is given. -/
def exceedsSize : Checked Int :=
  .refuse "int_parsing_size" "Unable to parse input string as an integer, exceeded maximum size"

/-- The integers that may be given as floating-point numbers lie strictly between the negative and
the positive of this one. -/
def floatIntegerBound : Nat := Nat.pow 2 63

/-- An integer. -/
def integer : Datum → Checked Int
  | .int n => .good n
  | .bool b => .good (if b then 1 else 0)
  | .float x =>
    match Decimal.Binary64.ofFloat x with
    | .finite negative m e =>
      match (Decimal.Binary64.finite negative m e).toInt? with
      | some n => if n.natAbs < floatIntegerBound then .good n else exceedsSize
      | none =>
        .refuse "int_from_float"
          "Input should be a valid integer, got a number with a fractional part"
    | _ => .refuse "finite_number" "Input should be a finite number"
  | .text s =>
    match IntegerText.read s with
    | .value n => .good n
    | .tooLong => exceedsSize
    | .unreadable =>
      .refuse "int_parsing"
        "Input should be a valid integer, unable to parse string as an integer"
  | _ => .refuse "int_type" "Input should be a valid integer"

/-- An integer that is no smaller than `bound`. -/
def atLeast (bound : Nat) (d : Datum) : Checked Nat :=
  (integer d).andThen fun n =>
    if Int.ofNat bound ≤ n then .good n.toNat
    else
      .refuse "greater_than_equal" s!"Input should be greater than or equal to {bound}"

/-! ### Truth values -/

def falseWords : List String := ["0", "off", "f", "false", "n", "no"]

def trueWords : List String := ["1", "on", "t", "true", "y", "yes"]

def uninterpretable : Checked Bool :=
  .refuse "bool_parsing" "Input should be a valid boolean, unable to interpret input"

def notBoolean : Checked Bool := .refuse "bool_type" "Input should be a valid boolean"

/-- The truth value that an integer stands for. -/
def flagOfInteger (n : Int) : Checked Bool :=
  if n = 0 then .good false else if n = 1 then .good true else uninterpretable

/-- An integer fits into a word of sixty-four bits with a sign. -/
def fitsWord (n : Int) : Bool := -Int.ofNat floatIntegerBound ≤ n && n < Int.ofNat floatIntegerBound

/-- A truth value. Integers have to fit into a word to be looked at; a number without fraction is
looked at like the integer that it is. -/
def flag : Datum → Checked Bool
  | .bool b => .good b
  | .int n => if fitsWord n then flagOfInteger n else notBoolean
  | .float x =>
    match (Decimal.Binary64.ofFloat x).toInt? with
    | some n => if n.natAbs < floatIntegerBound then flagOfInteger n else notBoolean
    | none => notBoolean
  | .text s =>
    let word := Text.lowerCase s
    if falseWords.contains word then .good false
    else if trueWords.contains word then .good true
    else uninterpretable
  | _ => notBoolean

/-! ### Texts -/

/-- What cannot be read as a text. -/
def notUnicode {α : Type} : Checked α :=
  .refuse "string_unicode"
    "Input should be a valid string, unable to parse raw data as a unicode string"

/-- A text, or bytes that spell one. -/
def wideText : Datum → Checked WideText
  | .text s => .good (.ofText s)
  | .wide w => .good w
  | .bytes bs =>
    match Text.Utf8.decode bs with
    | .ok cs => .good (.ofText (String.ofList cs))
    | .error _ => notUnicode
  | _ => .refuse "string_type" "Input should be a valid string"

/-- A text of whole characters. -/
def text (d : Datum) : Checked String :=
  (wideText d).andThen fun w =>
    match w.text? with
    | some s => .good s
    | none => notUnicode

/-- A text of whole characters, at least one. -/
def nonEmptyText (d : Datum) : Checked String :=
  (text d).andThen fun s =>
    if s = "" then .refuse "string_too_short" "String should have at least 1 character"
    else .good s

end SyntaxForest.Schema
