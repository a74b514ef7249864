import SyntaxForest.Decimal.Rounded
import SyntaxForest.Log.Record

/-!
The events that are logged in a fixed form: the outcome of a parse, a change of stage, a fault, a
measured value. Each gives a level, a message and further fields.
-/

namespace SyntaxForest

/-- What is logged, before a logger adds its own fields. -/
structure LogEvent where
  level : Int
  /-- What the level is shown as, if not as the name of its number. -/
  label : Option Datum := none
  message : Datum
  values : List Datum := []
  extra : Assoc String Datum := []
  fault : Option (Option Fault) := none

namespace LogEvent

/-- A message without further fields. -/
def plain (level : Int) (message : String) : LogEvent := { level, message := .text message }

/-- What is known of a parse when it ends. -/
structure ParseOutcome where
  language : Datum
  file : Datum
  /-- Milliseconds. -/
  duration : Float
  nodeCount : Option Datum := none
  errorCount : Option Datum := none
  /-- Why the parse failed, if it did. -/
  error : Option Datum := none

/-- The outcome of one parse. -/
def parse (p : ParseOutcome) : LogEvent :=
  let counts :=
    (p.nodeCount.map fun n => ("node_count", n)).toList
      ++ (p.errorCount.map fun n => ("error_count", n)).toList
  let extra :=
    [("language", p.language), ("file_path", p.file), ("operation", .text "parse"),
     ("duration_ms", .float (Decimal.roundTo 2 p.duration))] ++ counts
  match p.error with
  | some e =>
    { level := LogRecord.error
      message := .text ("Failed to parse " ++ p.language.shown ++ " source")
      extra := extra ++ [("error", e)] }
  | none =>
    { level := LogRecord.debug
      message := .text ("Parsed " ++ p.language.shown ++ " source")
      extra }

/-- A parser's change from one stage to another. -/
def transition (language source target : Datum) : LogEvent :=
  { level := LogRecord.debug,
    message := .text ("Parser state " ++ source.shown ++ " -> " ++ target.shown),
    extra := [("language", language), ("parser_state", target), ("previous_state", source)] }

/-- A fault with the fields of the work it arose in. -/
def failure (message : Datum) (fault : Fault) (context : Assoc String Datum) : LogEvent :=
  { level := LogRecord.error, message,
    extra := Assoc.set context "error_type" (.text fault.kindName), fault := some (some fault) }

/-- A measured value. -/
def metric (name value : Datum) (tags : Assoc String Datum) : LogEvent :=
  { level := LogRecord.info, message := .text ("Metric: " ++ name.shown),
    extra := [("metric_name", name), ("metric_value", value), ("metric_tags", .record tags)] }

/-- The record that a logger makes of the event; the event's fields win over the logger's. -/
def record (e : LogEvent) (logger : String) (context : Assoc String Datum) : LogRecord :=
  { level := e.level, label := e.label, logger := .text logger, message := e.message
    values := e.values, extra := Assoc.merge context e.extra, fault := e.fault }

end LogEvent

/-- The logger of measured values. -/
def metricLogger : String := "polyast.utils.metrics"

end SyntaxForest
