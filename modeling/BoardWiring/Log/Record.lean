import BoardWiring.Log.Clock
import BoardWiring.Log.Template
import BoardWiring.Value.Json

/-!
# Log records

A record is written as one line of JSON: the time stamp, the level, the logger's name and the
message, and then the extra fields that were given with it.

* `Record.line` is the line of a record; there is none if one of its integers is too long to be
  written.
-/

namespace BoardWiring

namespace Log

/-- A log record. -/
structure Record where
  /-- Name of the logger. -/
  name : Value
  /-- Name of the level. -/
  level : Value
  /-- Message, or a template for it. -/
  message : Value
  /-- Arguments of the message. -/
  arguments : Arguments
  /-- Seconds since the start of 1970. -/
  created : Value
  /-- Extra fields. -/
  extra : List (Value × Value)

namespace Record

/-- The fields that every record has and that are not written as extra fields. -/
def standardFields : List String :=
  ["args", "asctime", "created", "exc_info", "exc_text", "filename", "funcName", "levelname",
   "levelno", "lineno", "module", "msecs", "message", "msg", "name", "pathname", "process",
   "processName", "relativeCreated", "stack_info", "thread", "threadName", "taskName"]

/-- The methods of a record by which its line is made.  An extra field of that name hides the
method. -/
def methods : List String := ["getMessage"]

/-- The arguments of a message; one mapping that is not empty is asked for its fields. -/
def argumentsOf (vs : List Value) : Arguments :=
  match vs with
  | [.mapping (e :: es)] => .single (.mapping (e :: es))
  | _ => .many vs

/-- A record with one more field.  A field that every record has is replaced. -/
def withField (r : Record) (key value : Value) : Record :=
  match key with
  | .text "name" => { r with name := value }
  | .text "levelname" => { r with level := value }
  | .text "msg" => { r with message := value }
  | .text "args" => { r with arguments := .single value }
  | .text "created" => { r with created := value }
  | .text s =>
    if s ∈ standardFields then r else { r with extra := Value.enter key value r.extra }
  | .torn _ => { r with extra := Value.enter key value r.extra }
  | _ => r

/-- A record with more fields. -/
def withFields (r : Record) (es : List (Value × Value)) : Record :=
  es.foldl (fun r e => r.withField e.1 e.2) r

/-- The message has arguments. -/
def hasArguments (r : Record) : Bool :=
  match r.arguments with
  | .many vs => !vs.isEmpty
  | .single v => v.holds

/-- The name of the kind of a value. -/
def kindOf : Value → String
  | .null => "NoneType"
  | .bool _ => "bool"
  | .int _ => "int"
  | .float _ => "float"
  | .text _ | .torn _ => "str"
  | .bytes _ => "bytes"
  | .date _ => "datetime.date"
  | .moment _ => "datetime.datetime"
  | .pair _ _ => "tuple"
  | .mapping _ | .cyclic _ (.mapping _) => "dict"
  | .set _ => "set"
  | .list _ | .cyclic _ _ | .again _ => "list"

/-- The kind of the first extra field that hides a method. -/
def hidden? (r : Record) : Option String :=
  (methods.findSome? fun m => Value.find? (.text m) r.extra).map kindOf

/-- The message, its arguments filled in if there are any. -/
def text (r : Record) : Except TemplateFault LooseText :=
  match r.hidden? with
  | some kind => .error (.hidden kind)
  | none => do
    let message ← Template.textOf r.message
    if r.hasArguments then Template.fill message r.arguments else .ok message

/-- The fields of the line of a record. -/
def fields (r : Record) (stamp : String) (message : LooseText) : List (Value × Value) :=
  r.extra.foldl (fun es e => Value.enter e.1 e.2 es)
    [(.text "timestamp", .text stamp), (.text "level", r.level), (.text "name", r.name),
     (.text "message", message.value)]

/-- The line of a record with a time stamp. -/
def lineAt (r : Record) (stamp : String) : Except TemplateFault String := do
  let message ← r.text
  let fields := Value.mapping (r.fields stamp message)
  if fields.isWritable then pure (Json.text fields) else .error .tooLong

/-- The line of a record. -/
def line (r : Record) : Except Failure String :=
  match Clock.stamp r.created with
  | .error f => .error (.clock f)
  | .ok stamp =>
    match r.lineAt stamp with
    | .ok s => .ok s
    | .error f => .error (.template f)

end Record

end Log

end BoardWiring
