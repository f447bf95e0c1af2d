import BoardWiring.Pin.Reader

/-!
# The expander

Statements and expressions for an MCP23017 expander.  They are the same on every family; the bus
is shared by all expander pins.

* `Expander.pin` is the expression for a pin of the expander;
* `Expander.bringUp` are the statements that construct the expander, whose address is given by
  three straps (`Expander.straps`).
-/

namespace BoardWiring

namespace Expander

/-- The module of the driver. -/
def driver : String := "::rmk::gpio::mcp230xx"

/-- The name of the shared bus. -/
def sharedBus : String := "i2c_bus"

/-- The statement that makes the bus shared. -/
def sharedBusStatement : String := "let " ++ sharedBus ++ " = ::core::cell::RefCell::new(i2c);"

/-- The expression for one user of the shared bus. -/
def sharedBusDevice : String :=
  "::embedded_hal_bus::i2c::RefCellDevice::new(&" ++ sharedBus ++ ")"

/-- The type of a pin in a role. -/
def pinType : Role → String
  | .output => "Output"
  | .input => "Input"
  | .interruptInput => "Input"

/-- The expression for a pin of the expander. -/
def pinText (p : ExpanderPin) (role : Role) : String :=
  driver ++ "::" ++ pinType role ++ "::new(" ++ sharedBusDevice ++ ", " ++ driver ++
    "::Pin::new(0x" ++ Digits.hexByte p.address ++ ", " ++ driver ++ "::Bank::" ++
    String.singleton p.bank.letter ++ ", " ++ Digits.signed p.index ++ ")).unwrap()"

/-- The expression for a pin of the expander, whose number must be one that a bank has. -/
def pin (p : ExpanderPin) (role : Role) : Except Failure String :=
  match p.number with
  | .ok _ => .ok (pinText p role)
  | .error f => .error f

/-! ### Bringing up -/

/-- Bit `k` of an integer in two's complement. -/
def bit (i : Int) (k : Nat) : Bool := decide (i.fdiv (Int.pow 2 k) % 2 = 1)

/-- The levels of the straps A0, A1 and A2 for an address. -/
def straps (address : Int) : Bool × Bool × Bool :=
  let offset := address - ExpanderPin.minAddress
  (bit offset 0, bit offset 1, bit offset 2)

/-- The text of a level. -/
def level (b : Bool) : String := if b then "true" else "false"

/-- The statements that construct the expander at an address. -/
def bringUp (address : Int) : Except ConfigError (List String) :=
  if ExpanderPin.isAddress address then
    let (a0, a1, a2) := straps address
    .ok ["let mut mcp23x17 = ::port_expander::Mcp23x17::new_mcp23017(" ++ sharedBusDevice ++
        ", " ++ level a0 ++ ", " ++ level a1 ++ ", " ++ level a2 ++ ");",
      "let ge = mcp23x17.split();",
      "::defmt::info!(\"MCP23017 initialized\");"]
  else .error (.expanderAddress ("0x" ++ Digits.hexByte address))

end Expander

end BoardWiring
