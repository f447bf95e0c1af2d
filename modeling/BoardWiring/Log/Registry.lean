import BoardWiring.Failure
import BoardWiring.Log.Level

/-!
# Loggers

Loggers have dotted names and stand below one another.  A logger that has been set up has a
handler, which writes the records that reach it.  Whether a record is passed on at all is decided
by the nearest level that is set, from its logger upwards.  A record that is passed on and that no
handler takes goes to the handler of last resort, which writes warnings and what is worse.

* `Registry.setUp` sets a logger up, `Registry.copies` says how often a record is written;
* `Registry.isForgotten` says that a record is left to the handler of last resort;
* `Registry.parents` are the loggers above one.
-/

namespace BoardWiring

namespace Log

/-- A logger other than the topmost one. -/
structure Logger where
  /-- Name. -/
  name : String
  /-- Logger above it, none for the topmost one. -/
  parent : Option String
  /-- Level, zero if none is set. -/
  level : Nat
  /-- Number of its handlers, each of which writes the records that reach it. -/
  handlers : Nat
  deriving DecidableEq, Inhabited

/-- The loggers that are known. -/
structure Registry where
  /-- Level of the topmost logger. -/
  rootLevel : Nat
  /-- Number of the handlers of the topmost logger. -/
  rootHandlers : Nat
  /-- The other loggers. -/
  loggers : List Logger
  /-- There is a handler of last resort. -/
  lastResort : Bool
  deriving DecidableEq, Inhabited

namespace Registry

/-- The name of the topmost logger. -/
def rootName : String := "root"

/-- The name is one of the topmost logger. -/
def isRoot (name : String) : Bool := name == "" || name == rootName

/-- The loggers at the start: the topmost one lets warnings pass. -/
def empty : Registry := ⟨Level.warning.number, 0, [], true⟩

/-- The logger with a name. -/
def find? (r : Registry) (name : String) : Option Logger := r.loggers.find? (·.name == name)

/-! ### Names -/

/-- The places of the dots of a name behind which a name ends, the last one first; of dots side
by side only one is looked at. -/
def cuts (cs : List Char) : Nat → List Nat
  | 0 => []
  | 1 => []
  | n + 2 => if cs[n + 1]? = some '.' then (n + 1) :: cuts cs n else cuts cs (n + 1)

/-- The dotted names that a name begins with, the longest one first. -/
def ancestors (name : String) : List String :=
  let cs := name.toList
  (cuts cs cs.length).map fun n => String.ofList (cs.take n)

/-! ### Registration -/

/-- The logger above a name: the nearest that is known. -/
def parentOf (r : Registry) (name : String) : Option String :=
  (ancestors name).find? fun a => (r.find? a).isSome

/-- The name of the logger above a logger. -/
def parentName (l : Logger) : String := l.parent.getD rootName

/-- A logger once a logger `name` is known: it moves below the new one, unless the name of the
logger above it begins with that name. -/
def adopted (name : String) (l : Logger) : Logger :=
  if name ∈ ancestors l.name ∧ ¬ name.toList.isPrefixOf (parentName l).toList then
    { l with parent := some name }
  else l

/-- Makes a logger known. -/
def register (r : Registry) (name : String) : Registry :=
  if isRoot name || (r.find? name).isSome then r
  else
    { r with loggers := r.loggers.map (adopted name) ++ [⟨name, r.parentOf name, 0, 0⟩] }

/-- Loggers of some names. -/
def ofNames (names : List String) : Registry := names.foldl register empty

/-- The number of handlers of a logger that is given one if it has none. -/
def handled (handlers : Nat) : Nat := if handlers = 0 then 1 else handlers

/-- Gives a logger a level, and a handler if it has none. -/
def enable (r : Registry) (name : String) (level : Nat) : Registry :=
  if isRoot name then { r with rootLevel := level, rootHandlers := handled r.rootHandlers }
  else
    { r with loggers := r.loggers.map fun l =>
        if l.name = name then { l with level := level, handlers := handled l.handlers } else l }

/-- Sets a logger up with a level given by its name.  An unknown level changes nothing. -/
def setUp (r : Registry) (name level : String) : Except Failure Registry :=
  match Level.number? level with
  | none => .error (.unknownLevel level)
  | some n => .ok ((r.register name).enable name n)

/-- The level that was given to a logger. -/
def levelOf (r : Registry) (name : String) : Nat :=
  if isRoot name then r.rootLevel else ((r.find? name).map Logger.level).getD 0

/-- The number of the handlers of a logger. -/
def handlersOf (r : Registry) (name : String) : Nat :=
  if isRoot name then r.rootHandlers else ((r.find? name).map Logger.handlers).getD 0

/-! ### Records -/

/-- A logger and those above it, without the topmost one, `fuel` at most. -/
def parentsWithin (r : Registry) : Nat → String → List Logger
  | 0, _ => []
  | fuel + 1, name =>
    match r.find? name with
    | none => []
    | some l => l :: (l.parent.map (parentsWithin r fuel)).getD []

/-- A logger and those above it, without the topmost one. -/
def parents (r : Registry) (name : String) : List Logger :=
  parentsWithin r (r.loggers.length + 1) name

/-- The level from which on records of a logger are passed on. -/
def threshold (r : Registry) (name : String) : Nat :=
  (((r.parents name).map Logger.level).find? (· != 0)).getD r.rootLevel

/-- Records of a level are passed on by a logger. -/
def passes (r : Registry) (name : String) (level : Level) : Bool :=
  decide (r.threshold name ≤ level.number)

/-- The number of handlers of the loggers from one upwards. -/
def handlersAbove (r : Registry) (name : String) : Nat :=
  (r.parents name).foldr (fun l n => l.handlers + n) r.rootHandlers

/-- How often a record of a logger is written: once by each handler of the loggers from its own
upwards. -/
def copies (r : Registry) (name : String) (level : Level) : Nat :=
  if r.passes name level then r.handlersAbove name else 0

/-- A record of a logger is left to the handler of last resort. -/
def isForgotten (r : Registry) (name : String) (level : Level) : Bool :=
  r.lastResort && r.passes name level && decide (r.handlersAbove name = 0) &&
    decide (Level.warning.number ≤ level.number)

/-- The name that the records of a logger carry. -/
def recordName (name : String) : String := if isRoot name then rootName else name

end Registry

end Log

end BoardWiring
