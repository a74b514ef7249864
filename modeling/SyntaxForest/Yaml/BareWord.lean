import SyntaxForest.Text.Blank

/-!
What bare text stands for: the tag of its kind.

Words for truth values and for nothing, integers in four bases and in base sixty, decimals with a
point, dates and two signs have tags of their own; all other text is text.
-/

namespace SyntaxForest.Yaml

open SyntaxForest

/-! ### Tags -/

def coreTag (name : String) : String := "tag:yaml.org,2002:" ++ name

def textTag : String := coreTag "str"

def sequenceTag : String := coreTag "seq"

def mappingTag : String := coreTag "map"

def mergeTag : String := coreTag "merge"

def valueTag : String := coreTag "value"

/-! ### Shapes of text -/

/-- The text without a line feed at its end. -/
def withoutLineEnd (cs : List Char) : List Char :=
  if cs.getLast? = some '\n' then cs.dropLast else cs

def nullWords : List String := ["", "~", "null", "Null", "NULL"]

/-- Signs that begin what is said about nodes. -/
def reservedSigns : List String := ["!", "&", "*"]

def trueWords : List String := ["yes", "Yes", "YES", "true", "True", "TRUE", "on", "On", "ON"]

def falseWords : List String := ["no", "No", "NO", "false", "False", "FALSE", "off", "Off", "OFF"]

/-- The text without a sign in front. -/
def unsigned (cs : List Char) : List Char :=
  match cs with
  | '-' :: rest => rest
  | '+' :: rest => rest
  | _ => cs

def isDigitOrGap (c : Char) : Bool := c.isDigit || c = '_'

/-- A digit, then digits and underscores. -/
def isGrouped (cs : List Char) : Bool := cs.head?.any Char.isDigit && cs.all isDigitOrGap

/-- One or two digits below sixty. -/
def isSixtieth : List Char → Bool
  | [c] => c.isDigit
  | [c, d] => '0' ≤ c && c ≤ '5' && d.isDigit
  | _ => false

/-- At least one character, all of which satisfy a test. -/
def isRunOf (test : Char → Bool) (cs : List Char) : Bool := !cs.isEmpty && cs.all test

def isDecimalInteger (cs : List Char) : Bool :=
  cs = ['0'] || (cs.head? ≠ some '0' && isGrouped cs)

/-- An integer without its sign. -/
def isInteger (cs : List Char) : Bool :=
  match cs with
  | '0' :: 'b' :: rest => isRunOf (fun c => c = '0' || c = '1' || c = '_') rest
  | '0' :: 'x' :: rest =>
    isRunOf (fun c => c.isDigit || ('a' ≤ c && c ≤ 'f') || ('A' ≤ c && c ≤ 'F') || c = '_') rest
  | _ =>
    isDecimalInteger cs
      || (cs.head? = some '0' && isRunOf (fun c => ('0' ≤ c && c ≤ '7') || c = '_') cs.tail)
      || match Text.splitAt ':' cs with
        | first :: second :: rest =>
          first.head? ≠ some '0' && isGrouped first && (second :: rest).all isSixtieth
        | _ => false

/-- Nothing, or an exponent with a sign. -/
def isExponent (cs : List Char) : Bool :=
  match cs with
  | [] => true
  | mark :: sign :: digits =>
    (mark = 'e' || mark = 'E') && (sign = '-' || sign = '+') && isRunOf Char.isDigit digits
  | _ => false

/-- Digits and underscores, then perhaps an exponent. -/
def isFraction (cs : List Char) : Bool := isExponent (cs.dropWhile isDigitOrGap)

/-- The last part of a number in base sixty, with its fraction. -/
def isLastSixtieth (cs : List Char) : Bool :=
  match Text.splitAt '.' cs with
  | [whole, fraction] => isSixtieth whole && fraction.all isDigitOrGap
  | _ => false

def infinityWords : List (List Char) := [".inf".toList, ".Inf".toList, ".INF".toList]

def nanWords : List (List Char) := [".nan".toList, ".NaN".toList, ".NAN".toList]

/-- A number with a point. -/
def isDecimal (cs : List Char) : Bool :=
  let plain := unsigned cs
  let whole := plain.takeWhile (· ≠ '.')
  let pointed := match plain.dropWhile (· ≠ '.') with
    | '.' :: fraction => isGrouped whole && isFraction fraction
    | _ => false
  let short := match cs with
    | '.' :: c :: rest => c.isDigit && isFraction rest
    | _ => false
  let sixty := match (Text.splitAt ':' plain).reverse with
    | last :: before =>
      match before.reverse with
      | first :: middle => isGrouped first && middle.all isSixtieth && isLastSixtieth last
      | [] => false
    | [] => false
  pointed || short || sixty || infinityWords.contains plain || nanWords.contains cs

end SyntaxForest.Yaml
