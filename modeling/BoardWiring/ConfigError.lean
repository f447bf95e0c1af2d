import BoardWiring.Family
import BoardWiring.Pin.Basic
import BoardWiring.Value.Text

/-!
# Configuration errors

What can be wrong with a board description.  Every error carries the value that caused it.  In a
message the halves of surrogate pairs stand by their numbers.

* `ConfigError.kind`, `ConfigError.message` and `ConfigError.raw` are what is reported;
* the constructors behind them name the causes that the compiler itself finds.
-/

namespace BoardWiring

/-- A fault of a board description. -/
inductive ConfigError where
  | unknownPin (raw : LooseText) (family : Option Family)
  | invalidPlacement (raw reason : String)
  | invalidExpanderPin (raw : LooseText) (reason : String)
  | invalidFrequency (value : Value) (family : Option Family) (accepted : List Value)
  | unsupportedCapability (raw reason : String)
  | validation (message : String) (raw : Value)
  | general (raw : Value) (message : String)
  deriving Inhabited

namespace ConfigError

/-- The word for the kind of an error. -/
def kind : ConfigError → String
  | .unknownPin .. => "UnknownPin"
  | .invalidPlacement .. => "InvalidPlacement"
  | .invalidExpanderPin .. => "InvalidExpanderPin"
  | .invalidFrequency .. => "InvalidFrequency"
  | .unsupportedCapability .. => "UnsupportedCapability"
  | .validation .. => "ValidationError"
  | .general .. => "ConfigError"

/-- The family that an error is about, as it is said in its message. -/
def forFamily (family : Option Family) : String := family.elim "" fun f => " for " ++ f.name

/-- The message of an error. -/
def message : ConfigError → String
  | .unknownPin raw family => "Unknown pin " ++ Quoted.loose raw ++ forFamily family
  | .invalidPlacement raw reason =>
    "Invalid placement of pin " ++ Quoted.text raw ++ ": " ++ reason
  | .invalidExpanderPin raw reason =>
    "Invalid expander pin " ++ Quoted.loose raw ++
      if reason = "" then "" else " (" ++ reason ++ ")"
  | .invalidFrequency value family accepted =>
    "Invalid I2C frequency " ++ value.shown ++ " kHz" ++ forFamily family ++
      if accepted.isEmpty then ""
      else ", accepted: " ++ String.intercalate ", " (accepted.map Value.shown)
  | .unsupportedCapability raw reason =>
    "Unsupported capability on " ++ Quoted.text raw ++ ": " ++ reason
  | .validation message _ => message
  | .general _ message => message

/-- The value that caused an error. -/
def raw : ConfigError → Value
  | .unknownPin raw _ => raw.value
  | .invalidPlacement raw _ => .text raw
  | .invalidExpanderPin raw _ => raw.value
  | .invalidFrequency value _ _ => value
  | .unsupportedCapability raw _ => .text raw
  | .validation _ raw => raw
  | .general raw _ => raw

/-- The line that reports an error. -/
def report (e : ConfigError) : String := "error[" ++ e.kind ++ "]: " ++ e.message

/-! ### Causes -/

/-- The mark of an absent pin outside a grid. -/
def absentOutsideGrid : ConfigError :=
  .invalidPlacement Pin.absentMark "'_' is only allowed in direct pin arrays"

/-- An expander pin where one of the microcontroller is needed. -/
def notOnChip (raw : String) : ConfigError :=
  .invalidPlacement raw "must be a microcontroller pin"

/-- A place without a pin that was to be initialised. -/
def absentInitialised : ConfigError :=
  .invalidPlacement Pin.absentMark "an absent pin cannot be initialized"

/-- A pin used a second time. -/
def repeated (p : Pin) : ConfigError := .invalidPlacement p.text "pin is used more than once"

/-- A row of a grid that is not as long as the first. -/
def raggedRow (row length expected : Nat) : ConfigError :=
  .invalidPlacement ("direct_pins[" ++ Digits.decimal row ++ "]")
    ("row has " ++ Digits.decimal length ++ " pins, expected " ++ Digits.decimal expected)

/-- A text that has not the form of an expander pin. -/
def expanderForm (raw : LooseText) : ConfigError :=
  .invalidExpanderPin raw "expected MI<hex address>_<A|B><index>"

/-- An address that no expander can have. -/
def expanderAddress (raw : String) : ConfigError :=
  .invalidExpanderPin raw "expander address must be 0x20-0x27"

/-- A bank that an expander does not have. -/
def expanderBank (raw : String) (letter : Char) : ConfigError :=
  .invalidExpanderPin raw
    ("bank must be A or B, got " ++ Quoted.text (String.singleton letter))

/-- A pin number that a bank does not have. -/
def expanderIndex (p : ExpanderPin) : ConfigError :=
  .invalidExpanderPin p.text ("index " ++ Digits.signed p.index ++ " out of range 0-7")

/-- An expander pin that was to wake the processor. -/
def expanderInterrupt (p : ExpanderPin) : ConfigError :=
  .unsupportedCapability p.text "expander pins have no edge-triggered wake source"

/-- A pin number without an external interrupt line. -/
def noInterruptLine (name : String) (number : Int) : ConfigError :=
  .unsupportedCapability name ("no EXTI line for pin number " ++ Digits.signed number)

/-- An expander on a family whose bus is not supported. -/
def expanderWithoutBus (family : Family) : ConfigError :=
  .unsupportedCapability family.name "an I2C expander needs a supported I2C bus"

/-- An expander pin on a board without a usable bus. -/
def expanderPinWithoutBus (p : Pin) : ConfigError :=
  .unsupportedCapability p.text "expander pins need an enabled, supported i2c bus"

/-- A fault found while reading the description, caused by no value in particular. -/
def invalid (message : String) : ConfigError := .validation message .null

end ConfigError

end BoardWiring
