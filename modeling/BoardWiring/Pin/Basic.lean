import BoardWiring.Text.Digits

/-!
# Pins

A pin of the microcontroller itself, a pin of an MCP23017 expander on the I2C bus, or the mark
for a place of a grid that has none.

* `Pin.text` is the canonical spelling of a pin, `Pin.isWritable` says that it can be written;
* `Pin.text_expander` ties it to that of an expander pin.
-/

namespace BoardWiring

/-- One of the two banks of eight pins of an expander. -/
inductive Bank where
  | a
  | b
  deriving DecidableEq, Inhabited

/-- What a pin is used for. -/
inductive Role where
  | output
  | input
  | interruptInput
  deriving DecidableEq, Inhabited

/-- A pin of an expander. -/
structure ExpanderPin where
  /-- I2C address of the expander. -/
  address : Int
  /-- Bank of the pin. -/
  bank : Bank
  /-- Number of the pin in its bank. -/
  index : Int
  deriving DecidableEq, Inhabited

/-- A pin. -/
inductive Pin where
  | mcu (name : String) (number : Int)
  | expander (pin : ExpanderPin)
  | absent
  deriving DecidableEq, Inhabited

namespace Bank

/-- The letter of a bank. -/
def letter : Bank → Char
  | .a => 'A'
  | .b => 'B'

/-- The bank with a letter. -/
def ofLetter? (c : Char) : Option Bank :=
  if c = 'A' then some .a else if c = 'B' then some .b else none

/-- The number of the first pin of a bank among the pins of both. -/
def offset : Bank → Int
  | .a => 0
  | .b => 8

@[simp] theorem ofLetter?_letter (bank : Bank) : ofLetter? bank.letter = some bank := by
  cases bank <;> decide

end Bank

namespace Role

/-- The name of a role. -/
def name : Role → String
  | .output => "output"
  | .input => "input"
  | .interruptInput => "interrupt_input"

/-- The role of an input, which may have to wake the processor. -/
def inputFor (interrupt : Bool) : Role := if interrupt then .interruptInput else .input

end Role

namespace ExpanderPin

/-- The pins of a bank. -/
def bankSize : Int := 8

/-- The canonical spelling of an expander pin. -/
def text (p : ExpanderPin) : String :=
  "MI" ++ Digits.hexByteUpper p.address ++ "_" ++ String.singleton p.bank.letter ++
    Digits.signed p.index

/-- The pin's number in its bank is one that a bank has. -/
def inBank (p : ExpanderPin) : Bool := decide (0 ≤ p.index) && decide (p.index < bankSize)

end ExpanderPin

namespace Pin

/-- The mark for a place without a pin. -/
def absentMark : String := "_"

/-- The canonical spelling of a pin. -/
def text : Pin → String
  | .mcu name _ => name
  | .expander p => p.text
  | .absent => absentMark

/-- The spelling of a pin has no number that is too long. -/
def isWritable : Pin → Bool
  | .expander p => Digits.isWritable p.index
  | _ => true

/-- A pin of an expander. -/
def isExpander : Pin → Bool
  | .expander _ => true
  | _ => false

@[simp] theorem text_mcu (name : String) (number : Int) : (Pin.mcu name number).text = name := rfl

@[simp] theorem text_expander (p : ExpanderPin) : (Pin.expander p).text = p.text := rfl

@[simp] theorem text_absent : Pin.absent.text = "_" := rfl

@[simp] theorem isWritable_mcu (name : String) (number : Int) :
    (Pin.mcu name number).isWritable = true := rfl

@[simp] theorem isWritable_absent : Pin.absent.isWritable = true := rfl

end Pin

end BoardWiring
