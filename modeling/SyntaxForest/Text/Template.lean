import SyntaxForest.Decimal.Placed
import SyntaxForest.Fault

/-!
Message templates: text with places for values.

A place is a percent sign, flags, a width, a precision and a letter, of which only the letter is
needed. The letter tells how a value is shown: as text (`s`), between quotes (`r`, and `a` without
characters from outside the ASCII range), as an integer (`d`, `i`, `u`; `x`, `X`, `o` in other
bases), as a decimal (`f`, `e`, `g` and their capitals) or as a character (`c`). A star in place of
a size takes it from the values. A doubled percent sign is a percent sign. All values have to be
used.

When the only value is a record with entries, places can name its entries in brackets after the
percent sign, and the record need not be used.
-/

namespace SyntaxForest.Text.Template

open SyntaxForest

/-- Why a template cannot be filled. -/
inductive Flaw where
  | incomplete
  | incompleteKey
  | unsupported (letter : Char) (index : Nat)
  | tooFewValues
  | tooManyValues
  | numberRequired
  | integerRequired
  | charRequired
  | sizeRequired
  | recordRequired
  | unknownKey (key : String)
  | sizeTooBig (what : String)
  | sizeOutOfRange (what : String)
  | precisionTooLarge
  | infinite
  | notANumber
  | integerTooLarge
  | noSuchChar
  | tooWide
deriving DecidableEq, Repr

namespace Flaw

/-- A letter as it is shown in a message: outside the ASCII range as a question mark. -/
def shownLetter (letter : Char) : String :=
  if 31 ≤ letter.toNat && letter.toNat ≤ 126 then letter.toString else "?"

def fault : Flaw → Fault
  | incomplete => .badValue "incomplete format"
  | incompleteKey => .badValue "incomplete format key"
  | unsupported letter index =>
    let code := String.ofList (hexDigits 0 letter.toNat)
    .badValue
      ("unsupported format character '" ++ shownLetter letter ++ s!"' (0x{code}) at index {index}")
  | tooFewValues => .badType "not enough arguments for format string"
  | tooManyValues => .badType "not all arguments converted during string formatting"
  | numberRequired => .badType "a real number is required"
  | integerRequired => .badType "an integer is required"
  | charRequired => .badType "%c requires int or char"
  | sizeRequired => .badType "* wants int"
  | recordRequired => .badType "format requires a mapping"
  | unknownKey key => .badKey key
  | sizeTooBig what => .badValue (what ++ " too big")
  | sizeOutOfRange what => .ofText .overflow ("Python int too large to convert to C " ++ what)
  | precisionTooLarge => .ofText .overflow "precision too large"
  | infinite => .ofText .overflow "cannot convert float infinity to integer"
  | notANumber => .badValue "cannot convert float NaN to integer"
  | integerTooLarge => .beyondFloat
  | noSuchChar => .ofText .overflow "%c arg not in range(0x110000)"
  | tooWide => .raised .outOfMemory []

end Flaw

/-! ### Values -/

/-- The values of a template: a list to be used up, and a record whose entries can be named. -/
structure Values where
  list : List Datum
  table : Option (Assoc String Datum) := none

/-- The next value of the list. -/
def Values.next (v : Values) : Except Flaw (Datum × Values) :=
  match v.list with
  | d :: others => .ok (d, { v with list := others })
  | [] => .error .tooFewValues

/-- The name in brackets at the beginning of a place, and what follows it. -/
def readKey : Nat → List Char → Option (List Char × List Char)
  | _, [] => none
  | depth, c :: rest =>
    if c = ')' && depth = 0 then some ([], rest)
    else
      let depth := if c = '(' then depth + 1 else if c = ')' then depth - 1 else depth
      (readKey depth rest).map fun r => (c :: r.1, r.2)

/-- A name at the beginning of a place makes the entry of that name the only value left. Also gives
the text after the name. -/
def choose (v : Values) (cs : List Char) : Except Flaw (Values × List Char) :=
  match cs with
  | '(' :: rest =>
    match v.table with
    | none => .error .recordRequired
    | some table =>
      match readKey 0 rest with
      | none => .error .incompleteKey
      | some (key, after) =>
        match Assoc.get? table (String.ofList key) with
        | some d => .ok ({ v with list := [d] }, after)
        | none => .error (.unknownKey (String.ofList key))
  | rest => .ok (v, rest)

/-! ### Places -/

/-- How a place wants its value laid out. -/
structure Layout where
  alignLeft : Bool := false
  plus : Bool := false
  blank : Bool := false
  zero : Bool := false
  /-- The base of an integer, or a point, is shown. -/
  marked : Bool := false
  width : Nat := 0
  precision : Option Nat := none

/-- Reads the flags at the beginning of a place. -/
def readFlags (l : Layout) : List Char → Layout × List Char
  | '-' :: rest => readFlags { l with alignLeft := true } rest
  | '+' :: rest => readFlags { l with plus := true } rest
  | ' ' :: rest => readFlags { l with blank := true } rest
  | '0' :: rest => readFlags { l with zero := true } rest
  | '#' :: rest => readFlags { l with marked := true } rest
  | rest => (l, rest)

def number (digits : List Char) : Nat := digits.foldl (fun n c => n * 10 + (c.toNat - 48)) 0

/-- A size is given by digits, or by a star, which takes it from the values. Sizes are at most
`bound`; `what` and `word` tell which size it is. -/
def readSize (what word : String) (bound : Nat) (v : Values) (cs : List Char) :
    Except Flaw (Int × Values × List Char) :=
  match cs with
  | '*' :: rest => do
    let (d, v) ← v.next
    let n ← match d with
      | .int n => pure n
      | .bool b => pure (if b then 1 else 0)
      | _ => throw .sizeRequired
    if n < -Int.ofNat bound - 1 || Int.ofNat bound < n then throw (.sizeOutOfRange word)
    return (n, v, rest)
  | _ =>
    let n := number (cs.takeWhile Char.isDigit)
    if bound < n then .error (.sizeTooBig what)
    else .ok (Int.ofNat n, v, cs.dropWhile Char.isDigit)

/-- Reads the width of a place; a negative one stands for text at the left. -/
def readWidth (l : Layout) (v : Values) (cs : List Char) :
    Except Flaw (Layout × Values × List Char) := do
  let (n, v, rest) ← readSize "width" "ssize_t" (Nat.pow 2 63 - 1) v cs
  return ({ l with width := n.natAbs, alignLeft := l.alignLeft || decide (n < 0) }, v, rest)

/-- Reads the precision of a place; a negative one stands for zero. -/
def readPrecision (l : Layout) (v : Values) (cs : List Char) :
    Except Flaw (Layout × Values × List Char) :=
  match cs with
  | '.' :: rest => do
    let (n, v, rest) ← readSize "precision" "int" (Nat.pow 2 31 - 1) v rest
    return ({ l with precision := some n.toNat }, v, rest)
  | _ => .ok (l, v, cs)

/-- Skips the letters that once told the size of a number. -/
def skipModifier : List Char → List Char
  | c :: rest => if c = 'h' || c = 'l' || c = 'L' then rest else c :: rest
  | [] => []

/-- The layout of a place and what follows it, its letter first. -/
def readLayout (v : Values) (cs : List Char) : Except Flaw (Layout × Values × List Char) := do
  let (l, rest) := readFlags {} cs
  let (l, v, rest) ← readWidth l v rest
  let (l, v, rest) ← readPrecision l v rest
  return (l, v, skipModifier rest)

/-! ### Numbers in places -/

/-- The integer part of a number. -/
def integerOf : Datum → Except Flaw Int
  | .int n => .ok n
  | .bool b => .ok (if b then 1 else 0)
  | .float x =>
    match Decimal.Binary64.ofFloat x with
    | .finite negative m e =>
      let n := if 0 ≤ e then m * Nat.pow 2 e.toNat else m / Nat.pow 2 (-e).toNat
      .ok (if negative then -Int.ofNat n else Int.ofNat n)
    | .infinite _ => .error .infinite
    | .nan => .error .notANumber
  | _ => .error .numberRequired

/-- An integer that is given as one. -/
def wholeOf : Datum → Except Flaw Int
  | .int n => .ok n
  | .bool b => .ok (if b then 1 else 0)
  | _ => .error .integerRequired

/-- The double nearest to a number. -/
def doubleOf : Datum → Except Flaw Decimal.Binary64
  | .float x => .ok (Decimal.Binary64.ofFloat x)
  | .bool b => .ok (.finite false (if b then 1 else 0) 0)
  | .int n =>
    match Decimal.Binary64.ofFloat (Float.ofInt n) with
    | .infinite _ => .error .integerTooLarge
    | x => .ok x
  | _ => .error .numberRequired

def signOf (l : Layout) (negative : Bool) : List Char :=
  if negative then ['-'] else if l.plus then ['+'] else if l.blank then [' '] else []

/-- A sign with a mark after it, and digits with zeros in front up to the width if those are
wanted. -/
def layDigits (l : Layout) (sign digits : List Char) : List Char :=
  let missing := l.width - sign.length - digits.length
  if l.zero && !l.alignLeft then sign ++ List.replicate missing '0' ++ digits else sign ++ digits

/-- The most digits that an integer can be asked to have. -/
def maxIntegerPrecision : Nat := Nat.pow 2 31 - 4

/-- An integer in a base: its sign, the mark of the base, at least as many digits as the
precision. -/
def layInteger (l : Layout) (base : Nat) (mark : List Char) (n : Int) : Except Flaw (List Char) :=
  if maxIntegerPrecision < l.precision.getD 0 then .error .precisionTooLarge
  else
    let digits := Nat.toDigits base n.natAbs
    let sign := signOf l (decide (n < 0)) ++ if l.marked then mark else []
    .ok (layDigits l sign (List.replicate (l.precision.getD 0 - digits.length) '0' ++ digits))

/-- A double in a manner. -/
def layDouble (l : Layout) (manner : Decimal.Manner) : Decimal.Binary64 → List Char
  | .nan => layDigits l (signOf l false) "nan".toList
  | .infinite negative => layDigits l (signOf l negative) "inf".toList
  | .finite negative m q => layDigits l (signOf l negative) (manner.text l.marked m q)

/-- The manner of writing that a letter stands for. -/
def mannerOf? (l : Layout) (letter : Char) : Option Decimal.Manner :=
  let places := l.precision.getD 6
  if letter = 'f' then some (.fixed places)
  else if letter = 'e' then some (.scientific places)
  else if letter = 'g' then some (.general places)
  else none

/-! ### Values in places -/

/-- Code points with blanks up to the width. -/
def pad (l : Layout) (codes : List Nat) : List Nat :=
  let blanks := List.replicate (l.width - codes.length) ' '.toNat
  if l.alignLeft then codes ++ blanks else blanks ++ codes

/-- A text, cut after the precision. -/
def cut (l : Layout) (s : String) : List Char :=
  match l.precision with
  | some n => s.toList.take n
  | none => s.toList

/-- The code point that a value is or numbers. -/
def codeOf : Datum → Except Flaw Nat
  | .text s =>
    match s.toList with
    | [c] => .ok c.toNat
    | _ => .error .charRequired
  | .int n => if 0 ≤ n && n < 0x110000 then .ok n.toNat else .error .noSuchChar
  | .bool b => .ok (if b then 1 else 0)
  | _ => .error .charRequired

/-- The text of a value in a place with this letter, which stands at `index` and is not for a
character. -/
def shape (l : Layout) (letter : Char) (index : Nat) (value : Datum) : Except Flaw (List Char) :=
  if letter = 's' then .ok (cut l value.shown)
  else if letter = 'r' then .ok (cut l value.quoted)
  else if letter = 'a' then .ok (cut l (asciiOnly value.quoted))
  else if letter = 'd' || letter = 'i' || letter = 'u' then
    integerOf value >>= layInteger l 10 []
  else if letter = 'x' then wholeOf value >>= layInteger l 16 ['0', 'x']
  else if letter = 'X' then do
    return (← layInteger l 16 ['0', 'x'] (← wholeOf value)).map Char.toUpper
  else if letter = 'o' then wholeOf value >>= layInteger l 8 ['0', 'o']
  else
    match mannerOf? l letter, mannerOf? l letter.toLower with
    | some manner, _ => (doubleOf value).map (layDouble l manner)
    | none, some manner => (doubleOf value).map fun x => (layDouble l manner x).map Char.toUpper
    | none, none => .error (.unsupported letter index)

/-- The widest text that there is room for. -/
def widthLimit : Nat := Nat.pow 2 35

/-- The code points of a value in a place, with blanks up to the width. -/
def fill (l : Layout) (letter : Char) (index : Nat) (value : Datum) : Except Flaw (List Nat) := do
  let wide := decide (widthLimit < l.width)
  let codes ←
    if letter = 'c' then (codeOf value).map ([·])
    else
      (shape { l with width := if wide then 0 else l.width } letter index value).map
        (·.map Char.toNat)
  if wide then throw .tooWide
  return pad l codes

/-! ### Templates -/

/-- Fills the places of a template of `size` characters: the code points of the text. Also gives the
values left over. -/
def expandFrom (size : Nat) : Nat → Values → List Char → Except Flaw (List Nat × List Datum)
  | _, v, [] => .ok ([], v.list)
  | 0, v, _ => .ok ([], v.list)
  | fuel + 1, v, '%' :: '%' :: rest => do
    let (tail, left) ← expandFrom size fuel v rest
    return ('%'.toNat :: tail, left)
  | fuel + 1, v, '%' :: place => do
    let (v, afterName) ← choose v place
    let (layout, v, rest) ← readLayout v afterName
    match rest with
    | [] => throw .incomplete
    | letter :: rest =>
      let (value, v) ← v.next
      let text ← fill layout letter (size - rest.length - 1) value
      let (tail, left) ← expandFrom size fuel v rest
      return (text ++ tail, left)
  | fuel + 1, v, c :: rest => do
    let (tail, left) ← expandFrom size fuel v rest
    return (c.toNat :: tail, left)

/-- The entries of the record that is the only value. -/
def onlyRecord? : List Datum → Option (Assoc String Datum)
  | [.record (entry :: rest)] => some (entry :: rest)
  | _ => none

/-- Fills a template with values. Without values it is taken as it is. -/
def expand (template : String) (values : List Datum) : Except Flaw WideText :=
  if values.isEmpty then .ok (.ofText template)
  else
    let cs := template.toList
    let table := onlyRecord? values
    match expandFrom cs.length cs.length { list := values, table } cs with
    | .error e => .error e
    | .ok (text, left) =>
      if left.isEmpty || table.isSome then .ok (.ofCodes text) else .error .tooManyValues

end SyntaxForest.Text.Template
