import SyntaxForest.Fault
import SyntaxForest.Schema.Scalar

/-!
Results of parsing: a value, or the reason why there is none.
-/

namespace SyntaxForest

/-- What a parse returns instead of failing. -/
structure ParseResult (α : Type) where
  success : Bool
  value : Option α := none
  error : Option ParseFailure := none

namespace ParseResult

variable {α : Type}

def ok (value : α) : ParseResult α := { success := true, value := some value }

def fail (failure : ParseFailure) : ParseResult α := { success := false, error := some failure }

def isFailure (r : ParseResult α) : Bool := !r.success

/-- The message of the failure, if there is one. -/
def message (r : ParseResult α) : Option Datum := r.error.map (·.message)

/-- The value, or the failure as a fault. -/
def unwrap (r : ParseResult α) : Except Fault (Option α) :=
  match r.error with
  | some failure => .error failure.fault
  | none => .ok r.value

def recordName : String := "ParseResult"

/-- The failure that a plain value describes: a text is its message, and nothing is no failure. -/
def failGiven : Datum → Except Fault (ParseResult α)
  | .text message => .ok (fail { message := .text message })
  | .null => .ok { success := false }
  | _ =>
    .error (.invalid recordName
      [⟨"is_instance_of", [.field "error"], "Input should be an instance of ParsingError"⟩])

/-- The result that a record with a `success` field describes. -/
def make (fields : Assoc String Datum) (value : Option α) (error : Option ParseFailure) :
    Except Fault (ParseResult α) :=
  Schema.Checked.orFault recordName
    ((Schema.required fields "success" Schema.flag).map fun success => { success, value, error })

end ParseResult

end SyntaxForest
