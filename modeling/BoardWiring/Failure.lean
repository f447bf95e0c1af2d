import BoardWiring.ConfigError

/-!
# Failures

Why an operation gives no result: a fault of the board description, or one of the few causes
that are not reported as such.

* `Failure.message?` is the text of a failure that has one;
* `LoadFault` is what a loader of documents reports, `LoadFault.failure` what becomes of it;
* `Value.written` and `Pin.checkText` refuse what has too long a number to have a text.
-/

namespace BoardWiring

/-- Why a scalar of a document cannot be built as the type that it has. -/
inductive ScalarFault where
  | notBool
  | notInt
  | emptyInt
  | notFloat
  | hugeFloat
  | notTimestamp
  | notText
  | noSuchDate
  | escapeOutOfRange
  | hugeEscape
  deriving DecidableEq, Inhabited

/-- Why a message template cannot be filled in.  It is `hidden` if a field of some kind stands in
the place of what gives the message. -/
inductive TemplateFault where
  | arguments
  | form
  | missingField
  | range
  | tooLong
  | hidden (kind : String)
  deriving DecidableEq, Inhabited

/-- Why a text has no value as a document: it is none, and the loader says what is wrong with it, or
one of its scalars cannot be built as its type, or its parts nest too deep. -/
inductive LoadFault where
  | malformed (problem : String)
  | unbuilt (fault : ScalarFault)
  | tooDeep
  deriving DecidableEq, Inhabited

/-- A loader of documents. -/
abbrev Loader := LooseText → Except LoadFault Value

/-- Why a number of seconds has no time stamp. -/
inductive ClockFault where
  | notNumber
  | tooFar
  | noYear
  | year (year : Int)
  | notTime (kind : String)
  deriving DecidableEq, Inhabited

/-- The reason why an operation fails. -/
inductive Failure where
  | config (error : ConfigError)
  | longNumber (digits : Nat)
  | longInteger
  | tooDeep
  | unsupportedChip (chip : String)
  | outputAsInput
  | unknownLevel (given : String)
  | missingLevel
  | scalar (fault : ScalarFault)
  | template (fault : TemplateFault)
  | clock (fault : ClockFault)
  | takenField
  deriving Inhabited

namespace Failure

/-- A configuration error as the reason of a failure. -/
def ofConfig {α : Type} : Except ConfigError α → Except Failure α
  | .ok a => .ok a
  | .error e => .error (.config e)

/-- The message of a fault of the clock. -/
def clockMessage : ClockFault → String
  | .notNumber => "Invalid value NaN (not a number)"
  | .tooFar => "timestamp out of range for platform time_t"
  | .noYear => "[Errno 75] Value too large for defined data type"
  | .year y => "year " ++ Digits.signed y ++ " is out of range"
  | .notTime kind => "'" ++ kind ++ "' object cannot be interpreted as an integer"

/-- The message of a failure, if it has one. -/
def message? : Failure → Option String
  | .config e => some e.message
  | .longNumber n =>
    some ("Exceeds the limit (4300 digits) for integer string conversion: value has " ++
      Digits.decimal n ++ " digits; use sys.set_int_max_str_digits() to increase the limit")
  | .longInteger =>
    some ("Exceeds the limit (4300 digits) for integer string conversion; use " ++
      "sys.set_int_max_str_digits() to increase the limit")
  | .unsupportedChip chip => some ("Unsupported chip " ++ Quoted.text chip)
  | .outputAsInput => some "emit_input() needs an input role"
  | .unknownLevel given => some ("Invalid log level: " ++ given)
  | .missingLevel => some "'list' object has no attribute 'upper'"
  | .clock fault => some (clockMessage fault)
  | .template (.hidden kind) => some ("'" ++ kind ++ "' object is not callable")
  | .scalar _ | .template _ | .takenField | .tooDeep => none

end Failure

/-- What becomes of a fault of the loader: a text that is no document is reported. -/
def LoadFault.failure : LoadFault → Failure
  | .malformed problem => .config (.invalid ("Invalid YAML: " ++ problem))
  | .unbuilt fault => .scalar fault
  | .tooDeep => .tooDeep

/-- The text that a value gives, unless one of its integers is too long to be written. -/
def Value.written (v : Value) : Except Failure LooseText :=
  if v.isWritable then .ok v.asText else .error .longInteger

namespace Pin

/-- Refuses a pin whose spelling cannot be written. -/
def checkText (p : Pin) : Except Failure Unit :=
  if p.isWritable then .ok () else .error .longInteger

/-- The failure for an error that names a pin. -/
def blamed (p : Pin) (e : ConfigError) : Failure :=
  if p.isWritable then .config e else .longInteger

theorem checkText_of_isWritable {p : Pin} (h : p.isWritable = true) : p.checkText = .ok () := by
  simp [checkText, h]

theorem blamed_of_isWritable {p : Pin} (h : p.isWritable = true) (e : ConfigError) :
    p.blamed e = .config e := by
  simp [blamed, h]

theorem blamed_of_not_isWritable {p : Pin} (h : p.isWritable = false) (e : ConfigError) :
    p.blamed e = .longInteger := by
  simp [blamed, h]

end Pin

end BoardWiring
