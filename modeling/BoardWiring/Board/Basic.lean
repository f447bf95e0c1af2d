import BoardWiring.Emit.Layout

/-!
# Boards

A board description after it has been checked: which chip it has, how its keys are wired, and
what hangs on its I2C bus.  The entries for pins are still as they were written.
-/

namespace BoardWiring

/-- The wiring of the I2C bus, as the description gives it. -/
structure BusSettings where
  /-- The board has a bus. -/
  enabled : Bool
  /-- Entry for the data pin. -/
  sda : Value
  /-- Entry for the clock pin. -/
  scl : Value
  /-- Entry for the frequency in kHz. -/
  frequency : Value
  /-- An expander hangs on the bus. -/
  expander : Bool
  /-- Address of the expander. -/
  address : Int
  deriving Inhabited

/-- The wiring of the keys, as the description gives it. -/
structure KeyWiring where
  /-- Entries for the pins. -/
  layout : Layout Value
  /-- The inputs wake the processor. -/
  interrupt : Bool
  /-- A pressed key pulls its input low. -/
  activeLow : Bool

/-- A board description. -/
structure Board where
  /-- Name of the board. -/
  name : LooseText
  /-- Name of its chip. -/
  chip : LooseText
  /-- Family of the chip. -/
  family : Family
  /-- Wiring of the keys. -/
  keys : KeyWiring
  /-- Wiring of the bus. -/
  bus : BusSettings

/-- The settings of a board without a bus. -/
def BusSettings.none : BusSettings := ⟨false, .null, .null, .null, false, ExpanderPin.minAddress⟩

end BoardWiring
