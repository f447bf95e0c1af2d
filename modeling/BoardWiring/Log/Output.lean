import BoardWiring.Journal
import BoardWiring.Log.Record
import BoardWiring.Log.Registry

/-!
# Written logs

What the loggers write of a journal: each entry as one line, as often as there are loggers that
write it.  The handler of last resort writes the bare message.

* `Log.written` is the text for one record, `Log.ofEntry` is the record of an entry;
* `Log.log` logs a message through a logger.
-/

namespace BoardWiring

namespace Log

/-- What a handler writes of a text; nothing if there is none. -/
def lineOf : Except TemplateFault String → String
  | .ok s => s ++ "\n"
  | .error _ => ""

/-- The text that is written of a record at a time.  A record whose message cannot be filled in is
not written. -/
def written (r : Registry) (stamp : String) (logger : String) (level : Level)
    (record : Record) : String :=
  String.join (List.replicate (r.copies logger level) (lineOf (record.lineAt stamp))) ++
    if r.isForgotten logger level then lineOf (record.text.map Quoted.escaped) else ""

/-- A record of a logger, with arguments for its message. -/
def recordOf (logger : String) (level : Level) (message : LooseText) (args : List Value) :
    Record :=
  { name := .text (Registry.recordName logger)
    level := .text level.name
    message := message.value
    arguments := Record.argumentsOf args
    created := .null
    extra := [] }

/-- The record of an entry. -/
def ofEntry (e : Journal.Entry) : Record := recordOf e.logger e.level e.text []

/-- The text that is written of an entry at a time. -/
def writtenEntry (r : Registry) (stamp : String) (e : Journal.Entry) : String :=
  written r stamp e.logger e.level (ofEntry e)

/-- The loggers at the start of the program. -/
def loggers : Registry := Registry.ofNames Journal.loggers

/-- Extra fields of a record; those that every record has cannot be given. -/
def withExtra (r : Record) (es : List (Value × Value)) : Except Failure Record :=
  let isTaken (e : Value × Value) : Bool :=
    match e.1 with
    | .text s => s != "taskName" && Record.standardFields.contains s
    | _ => false
  if es.any isTaken then .error .takenField else .ok (r.withFields es)

/-- A message that is to be logged. -/
structure Message where
  /-- Name of the logger. -/
  logger : String
  /-- Level. -/
  level : Level
  /-- Text, or a template for it. -/
  text : LooseText
  /-- Arguments of the template. -/
  arguments : List Value
  /-- Extra fields. -/
  extra : List (Value × Value)

/-- The text that is written of a message at a time.  The extra fields of a message that is not
passed on are not looked at. -/
def output (r : Registry) (stamp : String) (m : Message) : Except Failure String :=
  if r.passes m.logger m.level then do
    let record ← withExtra (recordOf m.logger m.level m.text m.arguments) m.extra
    pure (written r stamp m.logger m.level record)
  else .ok ""

/-- Logs a message at a time: the text that is written, and the loggers, among which that of the
message is known from now on. -/
def log (r : Registry) (stamp : String) (m : Message) : Except Failure String × Registry :=
  let r := r.register m.logger
  (output r stamp m, r)

/-- The text that is written of a journal at a time. -/
def writtenJournal (r : Registry) (stamp : String) (es : List Journal.Entry) : String :=
  String.join (es.map (writtenEntry r stamp))

end Log

end BoardWiring
