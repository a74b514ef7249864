import SyntaxForest.Data.Json
import SyntaxForest.Text.Template

/-!
Log records and the line of JSON that shows one.

A record has a level, the name of its logger, a message and further fields. Four of the fields say
where in the work the record arose and stand at the top of the line; the others are gathered under
`context`. A fault is shown with its kind, its message and a report of where it arose.
-/

namespace SyntaxForest

/-- The place in a program that made a record. -/
structure LogSource where
  file : Datum
  line : Datum
  function : Datum

/-- One entry of a log. -/
structure LogRecord where
  level : Int
  /-- What the level is shown as, if not as the name of its number. -/
  label : Option Datum := none
  /-- The name of the logger. -/
  logger : Datum
  /-- The message, with places for `values`. -/
  message : Datum
  values : List Datum := []
  extra : Assoc String Datum := []
  /-- The fault that is reported, if one is; the inner option is for a report of no fault. -/
  fault : Option (Option Fault) := none
  source : Option LogSource := none

namespace LogRecord

def debug : Int := 10
def info : Int := 20
def warning : Int := 30
def error : Int := 40

/-- The names of the levels. -/
def levelNames : List (Int × String) :=
  [(50, "CRITICAL"), (40, "ERROR"), (30, "WARNING"), (20, "INFO"), (10, "DEBUG"), (0, "NOTSET")]

def levelName (level : Int) : String :=
  ((levelNames.find? (·.1 = level)).map (·.2)).getD s!"Level {level}"

/-- The names by which a level can be chosen. -/
def levelsByName : Assoc String Int :=
  [("CRITICAL", 50), ("FATAL", 50), ("ERROR", 40), ("WARN", 30), ("WARNING", 30), ("INFO", 20),
   ("DEBUG", 10), ("NOTSET", 0)]

/-- The name of the level that is equal to a number, floating-point or not. -/
def nameOfEqual? (x : Float) : Option String :=
  (levelNames.find? fun entry => Float.ofInt entry.1 == x).map (·.2)

/-- What a level is shown as that is given as a plain value: a number by its name, a name by its
number. -/
def labelOf : Datum → Except Fault Datum
  | .int n => .ok (.text (levelName n))
  | .bool false => .ok (.text (levelName 0))
  | .float x => .ok (.text ((nameOfEqual? x).getD ("Level " ++ (Datum.float x).shown)))
  | .text name =>
    .ok (match Assoc.get? levelsByName name with
      | some n => .int n
      | none => .text ("Level " ++ name))
  | .list _ | .record _ => .error (.badType "a level is no list and no record")
  | level => .ok (.text ("Level " ++ level.shown))

/-- Fields every record has, which a further field must not be named after. -/
def ownFields : List String :=
  ["name", "msg", "args", "levelname", "levelno", "pathname", "filename", "module", "exc_info",
   "exc_text", "stack_info", "lineno", "funcName", "created", "msecs", "relativeCreated", "thread",
   "threadName", "processName", "process", "message", "asctime"]

/-- A field that is accepted and not shown. -/
def hiddenFields : List String := ["taskName"]

/-- The fields that stand at the top of a line. -/
def topFields : List String := ["language", "file_path", "parser_state", "operation"]

/-- Refuses a further field with the name of one every record has. -/
def check (extra : Assoc String Datum) : Except Fault Unit :=
  match extra.find? fun entry => ownFields.contains entry.1 with
  | some entry =>
    .error (.ofText .badKey ("Attempt to overwrite " ++ Text.quoted entry.1 ++ " in LogRecord"))
  | none => .ok ()

/-- A field of this name stands in the way of forming the message. -/
def blockingField : String := "getMessage"

/-- The message with its values in place. -/
def messageText (r : LogRecord) : Except Fault WideText :=
  if Assoc.contains r.extra blockingField then .error (.badType "the message cannot be formed")
  else (Text.Template.expand r.message.shown r.values).mapError Text.Template.Flaw.fault

/-- The report of a fault without the steps that led to it. -/
def faultReport : Option Fault → String
  | none => "NoneType: None\n"
  | some f => (if f.text = "" then f.fullName else f.fullName ++ ": " ++ f.text) ++ "\n"

/-- A fault as it is shown in a line. -/
def faultFields (f : Option Fault) : Datum :=
  .record [("type", .ofText? (f.map (·.kindName))), ("message", .ofText? (f.map (·.text))),
    ("stack_trace", .text (faultReport f))]

/-- The further fields that are gathered under one name. -/
def contextFields (r : LogRecord) : Assoc String Datum :=
  r.extra.filter fun entry => !topFields.contains entry.1 && !hiddenFields.contains entry.1

def sourceFields (s : LogSource) : Datum :=
  .record [("file", s.file), ("line", s.line), ("function", s.function)]

/-- The record as the fields of its line. -/
def toDatum (r : LogRecord) (timestamp : String) : Except Fault Datum := do
  let message ← r.messageText
  let top := topFields.filterMap fun name => (Assoc.get? r.extra name).map fun d => (name, d)
  let context := r.contextFields
  return .record
    ([("timestamp", .text timestamp), ("level", r.label.getD (.text (levelName r.level))),
      ("logger", r.logger), ("message", .ofWide message)]
      ++ top
      ++ (if context.isEmpty then [] else [("context", .record context)])
      ++ (r.fault.map fun f => ("error", faultFields f)).toList
      ++ (r.source.map fun s => ("source", sourceFields s)).toList)

/-- All that the line is made of can be written. -/
def isWritable (r : LogRecord) (fields : Datum) : Bool :=
  fields.isWritable && r.message.isWritable && Datum.areWritable r.values
    && r.fault.join.all (·.isWritable)

/-- The line that shows the record. -/
def line (r : LogRecord) (timestamp : String) : Except Fault String := do
  let fields ← r.toDatum timestamp
  if r.isWritable fields then return Json.write fields else throw (.tooManyDigits "")

end LogRecord

end SyntaxForest
