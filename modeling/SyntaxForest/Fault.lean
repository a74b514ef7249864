import SyntaxForest.Data.Datum

/-!
Faults: what an operation reports when it does not return.

A `Fault` names a cause. Its message is shown to people, its `kindName` is the word under which
callers tell faults apart. A message can be asked for in vain: `written` is then the fault of
writing it.
-/

namespace SyntaxForest

/-- Source text that could not be parsed. -/
structure ParseFailure where
  message : Datum
  file : Datum := .null
  language : Datum := .null

namespace ParseFailure

def fault (f : ParseFailure) : Fault := .parsing f.message f.file f.language

end ParseFailure

namespace Fault

/-- A fault with a message. -/
def ofText (kind : FaultKind) (message : String) : Fault := raised kind [.text message]

def badValue (message : String) : Fault := ofText .badValue message

def badType (message : String) : Fault := ofText .badType message

def noAttribute (message : String) : Fault := ofText .noAttribute message

/-- The most digits of an integer that is read or written in base ten. -/
def digitLimit : Nat := Datum.digitLimit

/-- An integer with more digits than are read or written in base ten. -/
def tooManyDigits (how : String) : Fault :=
  badValue (s!"Exceeds the limit ({digitLimit} digits) for integer string conversion" ++ how
    ++ "; use sys.set_int_max_str_digits() to increase the limit")

/-- An integer's text with more digits than are read. -/
def tooLongInteger (count : Nat) : Fault := tooManyDigits s!": value has {count} digits"

/-- The message, unless an integer in it has too many digits to be written. -/
def written (f : Fault) : Except Fault String :=
  if f.isWritable then .ok f.text else .error (tooManyDigits "")

theorem written_of_isWritable {f : Fault} (h : f.isWritable = true) : f.written = .ok f.text :=
  if_pos h

theorem written_of_not_isWritable {f : Fault} (h : f.isWritable = false) :
    f.written = .error (tooManyDigits "") :=
  if_neg (Bool.eq_false_iff.mp h)

/-- A fault whose message may hold halves of characters. -/
def ofWide (kind : FaultKind) (message : WideText) : Fault := raised kind [.ofWide message]

/-- The message as a value, with its halves of characters. -/
def message : Fault → Datum
  | raised kind [.wide w] => if kind = .badKey then .text w.quoted else .wide w
  | f => .text f.text

/-- A key that is not there. -/
def badKey (key : String) : Fault := ofText .badKey key

/-- A place outside of a list. -/
def badPlace : Fault := ofText .badIndex "list index out of range"

/-- An integer beyond the floating-point numbers. -/
def beyondFloat : Fault := ofText .overflow "int too large to convert to float"

def cancelled : Fault := raised .cancelled []

def kindName : Fault → String
  | raised kind _ => kind.name
  | parsing .. => "ParsingError"
  | disposed _ => "ParserDisposedError"
  | invalid .. => "ValidationError"

def fullName : Fault → String
  | raised kind _ => kind.fullName
  | parsing .. => "polyast.errors.ParsingError"
  | disposed _ => "polyast.errors.ParserDisposedError"
  | invalid .. => "ValidationError"

/-- Every fault but a cancellation and an interruption is a failure of the work itself. -/
def isFailure : Fault → Bool
  | raised .cancelled _ => false
  | raised .interrupted _ => false
  | _ => true

def isCancelled : Fault → Bool
  | raised .cancelled _ => true
  | _ => false

/-- Faults that end the program at large: nobody on the way deals with them. -/
def isInterruption : Fault → Bool
  | raised .interrupted _ => true
  | _ => false

/-- Faults of use: the call was made at the wrong time. -/
def isRuntime : Fault → Bool
  | raised .runtime _ => true
  | raised .badTransition _ => true
  | disposed _ => true
  | _ => false

def isOutOfMemory : Fault → Bool
  | raised .outOfMemory _ => true
  | _ => false

def isDisposed : Fault → Bool
  | disposed _ => true
  | _ => false

/-- The faults whose wording is left to whoever raised them and is not reported. -/
def hidesText : Fault → Bool
  | raised .badType _ => true
  | raised .noAttribute _ => true
  | _ => false

end Fault

/-- The failure with some parts: a message, a file and a language, of which the first has to be
given. -/
def ParseFailure.make : List Datum → Except Fault ParseFailure
  | [message] => .ok { message }
  | [message, file] => .ok { message, file }
  | [message, file, language] => .ok { message, file, language }
  | [] =>
    .error (.badType "ParsingError.__init__() missing 1 required positional argument: 'message'")
  | values =>
    .error (.badType ("ParsingError.__init__() takes from 2 to 4 positional arguments but "
      ++ s!"{values.length + 1} were given"))

/-- The fault of a kind that is raised with some values. Two kinds stand for more than a message and
have parts of their own. -/
def Fault.make (kind : String) (values : List Datum) : Except Fault Fault :=
  if kind = "ParsingError" then (ParseFailure.make values).map (·.fault)
  else if kind = "ParserDisposedError" then
    match values with
    | [parser] => .ok (.disposed parser)
    | [] =>
      .error (.badType
        "ParserDisposedError.__init__() missing 1 required positional argument: 'parser_name'")
    | values =>
      .error (.badType ("ParserDisposedError.__init__() takes 2 positional arguments but "
        ++ s!"{values.length + 1} were given"))
  else
    match FaultKind.ofName? kind with
    | some known => .ok (.raised known values)
    | none => .error (.badKey kind)

end SyntaxForest
