/-!
# Log levels

How important a log record is.  A logger passes on records from its own level upwards.

* `Level.number?` is the number of a level by its name.
-/

namespace BoardWiring

namespace Log

/-- The level of a record. -/
inductive Level where
  | debug
  | info
  | warning
  | error
  | critical
  deriving DecidableEq, Inhabited

namespace Level

/-- The number of a level. -/
def number : Level → Nat
  | .debug => 10
  | .info => 20
  | .warning => 30
  | .error => 40
  | .critical => 50

/-- The name of a level. -/
def name : Level → String
  | .debug => "DEBUG"
  | .info => "INFO"
  | .warning => "WARNING"
  | .error => "ERROR"
  | .critical => "CRITICAL"

/-- The names that a logger's level can be set by, with their numbers. -/
def settings : List (String × Nat) :=
  [("DEBUG", 10), ("INFO", 20), ("WARNING", 30), ("WARN", 30), ("ERROR", 40), ("CRITICAL", 50),
   ("FATAL", 50), ("NOTSET", 0)]

/-- The name of the level that is set if none is given. -/
def defaultName : String := Level.warning.name

/-- The upper-case form of a character.  Beside the letters of ASCII only those matter whose
upper-case form is one of them: the dotless i and the long s. -/
def upper (c : Char) : Char :=
  if c = 'ı' then 'I' else if c = 'ſ' then 'S' else c.toUpper

/-- The number of a level by its name in upper or lower case. -/
def number? (s : String) : Option Nat := settings.lookup (String.ofList (s.toList.map upper))

end Level

end Log

end BoardWiring
