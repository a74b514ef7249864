import SyntaxForest.Data.Datum

/-!
Checking the fields of a record and reporting every bad one.

A `Checked` value is either a good value or the issues found. Combining two checks with `<*>` keeps
the issues of both, in order, so a record built field by field reports all its bad fields at once.
-/

namespace SyntaxForest.Schema

open SyntaxForest

/-- A good value, or the issues that speak against it. -/
inductive Checked (α : Type) where
  | good (value : α)
  | bad (issues : List Issue)
deriving Repr

namespace Checked

variable {α β : Type}

def map (f : α → β) : Checked α → Checked β
  | good a => good (f a)
  | bad issues => bad issues

/-- Applies a checked function to a checked argument; the issues of both add up. -/
def both (f : Checked (α → β)) (x : Checked α) : Checked β :=
  match f, x with
  | good g, good a => good (g a)
  | bad i, bad j => bad (i ++ j)
  | bad i, good _ => bad i
  | good _, bad j => bad j

instance : Applicative Checked where
  pure := good
  map := map
  seq f x := both f (x ())

/-- A check that runs only on a good value. -/
def andThen (x : Checked α) (f : α → Checked β) : Checked β :=
  match x with
  | good a => f a
  | bad issues => bad issues

/-- One issue with the value itself. -/
def refuse (rule message : String) : Checked α := bad [{ rule, path := [], message }]

/-- The check of a part, its issues told from the whole. -/
def under (step : Step) : Checked α → Checked α
  | good a => good a
  | bad issues => bad (issues.map (Issue.under step))

/-- The good value, or the fault that names the record and its issues. -/
def orFault (record : String) : Checked α → Except Fault α
  | good a => .ok a
  | bad issues => .error (.invalid record issues)

end Checked

/-! ### Fields of a record -/

/-- A field that has to be there. -/
def required {α : Type} (fields : Assoc String Datum) (name : String) (check : Datum → Checked α) :
    Checked α :=
  (match Assoc.get? fields name with
    | some d => check d
    | none => .refuse "missing" "Field required").under (.field name)

/-- A field with a default. -/
def defaulted {α : Type} (fields : Assoc String Datum) (name : String) (default : α)
    (check : Datum → Checked α) : Checked α :=
  match Assoc.get? fields name with
  | some d => (check d).under (.field name)
  | none => .good default

/-- A value that may be nothing. -/
def nullable {α : Type} (check : Datum → Checked α) : Datum → Checked (Option α)
  | .null => .good none
  | d => (check d).map some

/-- A field that may be absent or nothing. -/
def optional {α : Type} (fields : Assoc String Datum) (name : String)
    (check : Datum → Checked α) : Checked (Option α) :=
  defaulted fields name none (nullable check)

/-- The checks of all items, from position `i` on. -/
def items {α : Type} (check : Datum → Checked α) : Nat → List Datum → Checked (List α)
  | _, [] => .good []
  | i, d :: rest =>
    Checked.both ((check d).under (.index i) |>.map List.cons) (items check (i + 1) rest)

/-- The checks of all entries of a record. -/
def entries {α : Type} (check : Datum → Checked α) :
    List (String × Datum) → Checked (Assoc String α)
  | [] => .good []
  | (name, d) :: rest =>
    Checked.both ((check d).under (.field name) |>.map fun a tail => (name, a) :: tail)
      (entries check rest)

def listOf {α : Type} (check : Datum → Checked α) : Datum → Checked (List α)
  | .list ds => items check 0 ds
  | _ => .refuse "list_type" "Input should be a valid list"

def setOf {α : Type} (check : Datum → Checked α) : Datum → Checked (List α)
  | .list ds => items check 0 ds
  | _ => .refuse "frozen_set_type" "Input should be a valid frozenset"

def tableOf {α : Type} (check : Datum → Checked α) : Datum → Checked (Assoc String α)
  | .record fields => entries check fields
  | _ => .refuse "dict_type" "Input should be a valid dictionary"

/-- Assigning to a field of a record that cannot change. -/
def frozenFault (record name : String) : Fault :=
  .invalid record
    [{ rule := "frozen_instance", path := [.field name], message := "Instance is frozen" }]

end SyntaxForest.Schema
