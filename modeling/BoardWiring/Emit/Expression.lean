import BoardWiring.Family
import BoardWiring.Fragment
import BoardWiring.Expander

/-!
# Initialisers

The expression that initialises a pin, in the words of the hardware abstraction of each family.

* `Emit.output`, `Emit.input` and `Emit.interruptInput` are the expressions for pins of the
  microcontroller;
* `Emit.initialiser` is the expression for any pin in any role, or the reason why there is none.
-/

namespace BoardWiring

namespace Emit

/-- The hardware abstraction of a family. -/
def hal : Family → String
  | .stm32 => "::embassy_stm32"
  | .nrf52 => "::embassy_nrf"
  | .rp2040 => "::embassy_rp"
  | .esp32 => "::esp_idf_svc::hal"

/-- The level of an idle output. -/
def level (activeLow : Bool) : String := if activeLow then "High" else "Low"

/-- The pull of an idle input. -/
def pull (activeLow : Bool) : String := if activeLow then "Up" else "Down"

/-- The function that sets the level of an idle output. -/
def setter (activeLow : Bool) : String := if activeLow then "set_high" else "set_low"

/-- The expression for an output on a pin of the microcontroller. -/
def output (family : Family) (name : String) (activeLow : Bool) : String :=
  match family with
  | .stm32 =>
    hal family ++ "::gpio::Output::new(p." ++ name ++ ", " ++ hal family ++ "::gpio::Level::" ++
      level activeLow ++ ", " ++ hal family ++ "::gpio::Speed::VeryHigh).degrade()"
  | .nrf52 =>
    hal family ++ "::gpio::Output::new(" ++ hal family ++ "::gpio::AnyPin::from(p." ++ name ++
      "), " ++ hal family ++ "::gpio::Level::" ++ level activeLow ++ ", " ++ hal family ++
      "::gpio::OutputDrive::Standard)"
  | .rp2040 =>
    hal family ++ "::gpio::Output::new(" ++ hal family ++ "::gpio::AnyPin::from(p." ++ name ++
      "), " ++ hal family ++ "::gpio::Level::" ++ level activeLow ++ ")"
  | .esp32 =>
    "\x7b let mut pin = " ++ hal family ++ "::gpio::PinDriver::output(p.pins." ++ name ++
      ".downgrade_output()).unwrap(); pin." ++ setter activeLow ++ "().unwrap(); pin \x7d"

/-- The expression for an input on a pin of the microcontroller. -/
def input (family : Family) (name : String) (activeLow : Bool) : String :=
  match family with
  | .stm32 =>
    hal family ++ "::gpio::Input::new(p." ++ name ++ ", " ++ hal family ++ "::gpio::Pull::" ++
      pull activeLow ++ ").degrade()"
  | .nrf52 | .rp2040 =>
    hal family ++ "::gpio::Input::new(" ++ hal family ++ "::gpio::AnyPin::from(p." ++ name ++
      "), " ++ hal family ++ "::gpio::Pull::" ++ pull activeLow ++ ")"
  | .esp32 =>
    "\x7b let mut pin = " ++ hal family ++ "::gpio::PinDriver::input(p.pins." ++ name ++
      ".downgrade_input()).unwrap(); pin.set_pull(" ++ hal family ++ "::gpio::Pull::" ++
      pull activeLow ++ ").unwrap(); pin \x7d"

/-- The number of external interrupt lines. -/
def interruptLines : Int := 16

/-- The expression for an input that wakes the processor, on a pin of the microcontroller.  Where
each such input needs a line of its own, the line is given by the pin's number; elsewhere plain
inputs serve. -/
def interruptInput (family : Family) (name : String) (number : Int) (activeLow : Bool) :
    Except Failure String :=
  match family with
  | .stm32 =>
    if 0 ≤ number ∧ number < interruptLines then
      .ok (hal family ++ "::exti::ExtiInput::new(" ++ input family name activeLow ++ ", p.EXTI" ++
        Digits.signed number ++ ".degrade())")
    else if Digits.isWritable number then .error (.config (.noInterruptLine name number))
    else .error .longInteger
  | _ => .ok (input family name activeLow)

/-- The expression that initialises a pin. -/
def initialiser (family : Family) (pin : Pin) (role : Role) (activeLow : Bool) :
    Except Failure String :=
  match pin, role with
  | .expander p, .interruptInput => .error (pin.blamed (.expanderInterrupt p))
  | .expander p, role => Expander.pin p role
  | .mcu name _, .output => .ok (output family name activeLow)
  | .mcu name _, .input => .ok (input family name activeLow)
  | .mcu name number, .interruptInput => interruptInput family name number activeLow
  | .absent, _ => .error (.config .absentInitialised)

end Emit

end BoardWiring
