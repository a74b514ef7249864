import SyntaxForest.Source.Span

/-!
Diagnostics: what is reported about a place in a source text that is not well formed.
-/

namespace SyntaxForest

open Schema

/-- How serious a diagnostic is. -/
inductive Severity where
  | hidden
  | info
  | warning
  | error
deriving DecidableEq, Repr

namespace Severity

def name : Severity → String
  | hidden => "hidden"
  | info => "info"
  | warning => "warning"
  | error => "error"

def ofName? (s : String) : Option Severity := [hidden, info, warning, error].find? (·.name = s)

/-- A severity, given by its name. -/
def ofDatum (d : Datum) : Checked Severity :=
  let named := match d with
    | .text s => ofName? s
    | _ => none
  match named with
  | some severity => .good severity
  | none => .refuse "enum" "Input should be 'hidden', 'info', 'warning' or 'error'"

end Severity

/-- A report about a place in a source text. -/
structure Diagnostic where
  message : String
  code : Option String := none
  severity : Severity := .error
  span : Option Span := none
  file : Option String := none
deriving DecidableEq

namespace Diagnostic

def recordName : String := "SyntaxDiagnostic"

/-- The diagnostic that a record describes. -/
def make (fields : Assoc String Datum) : Except Fault Diagnostic :=
  Checked.orFault recordName
    (Diagnostic.mk <$> required fields "message" text
      <*> optional fields "code" text
      <*> defaulted fields "severity" .error Severity.ofDatum
      <*> optional fields "location" Span.ofDatum
      <*> optional fields "file_path" text)

/-- The diagnostic as plain data. -/
def toDatum (d : Diagnostic) : Datum :=
  .list [.text d.message, .ofText? d.code, .text d.severity.name, .ofOption Span.toDatum d.span,
    .ofText? d.file]

end Diagnostic

end SyntaxForest
