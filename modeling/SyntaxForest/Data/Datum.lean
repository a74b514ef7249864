import SyntaxForest.Data.Assoc
import SyntaxForest.Decimal.Written
import SyntaxForest.Fault.Kind
import SyntaxForest.Text.Quoted

/-!
Plain data: what settings, configuration files, metadata and log fields hold.

Integers are unbounded and distinct from floating-point numbers. A text that holds halves of
characters is told apart from other texts. The fields of a record keep their order. A fault can
stand where a value does, since log fields may carry one, and a fault carries the values that it was
raised with.
-/

namespace SyntaxForest

mutual

/-- A plain value. -/
inductive Datum where
  | null
  | bool (value : Bool)
  | int (value : Int)
  | float (value : Float)
  | text (value : String)
  /-- A text that holds a half of a character. -/
  | wide (value : WideText)
  | bytes (value : List UInt8)
  | list (items : List Datum)
  | record (fields : List (String × Datum))
  | fault (value : Fault)

/-- Why an operation did not return. -/
inductive Fault where
  /-- A fault of one of the plain kinds, with the values it was raised with. -/
  | raised (kind : FaultKind) (details : List Datum)
  /-- Source text that could not be parsed. -/
  | parsing (message file language : Datum)
  /-- Use of a parser after it was disposed of. -/
  | disposed (parser : Datum)
  /-- A record whose values break its rules. -/
  | invalid (record : String) (issues : List Issue)

end

instance : Inhabited Datum := ⟨.null⟩

namespace Datum

/-- A text or nothing. -/
def ofText? : Option String → Datum
  | some s => text s
  | none => null

/-- A text with or without halves of characters. -/
def ofWide (w : WideText) : Datum :=
  match w.text? with
  | some s => text s
  | none => wide w

def nat (n : Nat) : Datum := int (Int.ofNat n)

def ofNat? : Option Nat → Datum
  | some n => nat n
  | none => null

/-- What an optional value is seen as, nothing if there is none. -/
def ofOption {α : Type} (f : α → Datum) : Option α → Datum
  | some a => f a
  | none => null

def listOf {α : Type} (f : α → Datum) (items : List α) : Datum := list (items.map f)

/-- The entries of a table in their order, as pairs. -/
def pairsOf {α : Type} (f : α → Datum) (table : Assoc String α) : Datum :=
  listOf (fun entry => list [text entry.1, f entry.2]) table

def texts (items : List String) : Datum := list (items.map text)

/-- The field of a record. -/
def field? (d : Datum) (name : String) : Option Datum :=
  match d with
  | record fields => Assoc.get? fields name
  | _ => none

/-- The field of a record, nothing if there is none. -/
def get (d : Datum) (name : String) : Datum := (d.field? name).getD null

def has (d : Datum) (name : String) : Bool := (d.field? name).isSome

/-- The fields of a record; other values have none. -/
def fieldsOf : Datum → Assoc String Datum
  | record fields => fields
  | _ => []

/-- The items of a list; other values have none. -/
def itemsOf : Datum → List Datum
  | list items => items
  | _ => []

def text? : Datum → Option String
  | text s => some s
  | _ => none

/-- Nothing, false, zero, and what is empty do not count as given. -/
def isGiven : Datum → Bool
  | null => false
  | bool b => b
  | int n => n ≠ 0
  | float x => x != 0.0
  | text s => s ≠ ""
  | wide _ => true
  | bytes bs => !bs.isEmpty
  | list items => !items.isEmpty
  | record fields => !fields.isEmpty
  | fault _ => true

/-- The value is this text. -/
def isText (s : String) : Datum → Bool
  | text t => t = s
  | _ => false

def floatWords : Decimal.SpecialWords := { nan := "nan", infinity := "inf" }

end Datum

namespace Fault

def disposedText (parser : String) : String := "Cannot access a disposed parser: " ++ parser

/-- How many rules a record breaks, in words. -/
def invalidText (record : String) (issues : List Issue) : String :=
  let plural := if issues.length = 1 then "" else "s"
  s!"{issues.length} validation error{plural} for {record}"

end Fault

mutual

/-- The value as it is written inside lists and records: texts between quotes. -/
def Datum.quoted : Datum → String
  | .null => "None"
  | .bool true => "True"
  | .bool false => "False"
  | .int n => toString n
  | .float x => Decimal.text Datum.floatWords x
  | .text s => Text.quoted s
  | .wide w => w.quoted
  | .bytes bs => Text.quotedBytes bs
  | .list items => "[" ++ ", ".intercalate (Datum.quotedItems items) ++ "]"
  | .record fields => "\x7b" ++ ", ".intercalate (Datum.quotedFields fields) ++ "\x7d"
  | .fault f => Fault.quoted f

def Datum.quotedItems : List Datum → List String
  | [] => []
  | d :: rest => Datum.quoted d :: Datum.quotedItems rest

def Datum.quotedFields : List (String × Datum) → List String
  | [] => []
  | (name, d) :: rest => (Text.quoted name ++ ": " ++ Datum.quoted d) :: Datum.quotedFields rest

/-- The fault as it appears inside other quoted values. -/
def Fault.quoted : Fault → String
  | .raised kind details => kind.name ++ "(" ++ ", ".intercalate (Datum.quotedItems details) ++ ")"
  | .parsing message _ _ => "ParsingError(" ++ Datum.quoted message ++ ")"
  | .disposed (.text parser) =>
    "ParserDisposedError(" ++ Text.quoted (Fault.disposedText parser) ++ ")"
  | .disposed parser =>
    "ParserDisposedError(" ++ Text.quoted (Fault.disposedText (Datum.quoted parser)) ++ ")"
  | .invalid record issues => Fault.invalidText record issues

end

/-- The most digits of an integer that is written in base ten. -/
def Datum.digitLimit : Nat := 4300

mutual

/-- The value can be written: no integer in it has too many digits. -/
def Datum.isWritable : Datum → Bool
  | .int n => n.natAbs < Nat.pow 10 Datum.digitLimit
  | .list items => Datum.areWritable items
  | .record fields => Datum.fieldsWritable fields
  | .fault f => Fault.isWritable f
  | _ => true

def Datum.areWritable : List Datum → Bool
  | [] => true
  | d :: rest => Datum.isWritable d && Datum.areWritable rest

def Datum.fieldsWritable : List (String × Datum) → Bool
  | [] => true
  | (_, d) :: rest => Datum.isWritable d && Datum.fieldsWritable rest

/-- The fault can be written. Of source text that could not be parsed only the message is. -/
def Fault.isWritable : Fault → Bool
  | .raised _ details => Datum.areWritable details
  | .parsing message _ _ => Datum.isWritable message
  | .disposed parser => Datum.isWritable parser
  | .invalid _ _ => true

end

mutual

/-- The value as text: a text as it is but for halves, a fault by its message, all else as
`quoted`. -/
def Datum.shown : Datum → String
  | .text s => s
  | .wide w => w.legible
  | .fault f => Fault.text f
  | d => d.quoted

/-- The message of a fault that can be written: the one value as it is (a key between quotes),
several as a bracketed list. -/
def Fault.text : Fault → String
  | .raised _ [] => ""
  | .raised kind [detail] => if kind = .badKey then detail.quoted else Datum.shown detail
  | .raised _ details => "(" ++ ", ".intercalate (Datum.quotedItems details) ++ ")"
  | .parsing message _ _ => Datum.shown message
  | .disposed parser => Fault.disposedText (Datum.shown parser)
  | .invalid record issues => Fault.invalidText record issues

end

end SyntaxForest
