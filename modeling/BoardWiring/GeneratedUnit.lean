import BoardWiring.Bus

/-!
# Generated units

The initialisation code of one board.  The generation either succeeds completely or fails with
the first error.

* `Board.generate` gives the unit of a board, `GeneratedUnit.render` its text.
-/

namespace BoardWiring

/-- The initialisation code of a board, the bus before the pins. -/
structure GeneratedUnit where
  /-- Name of the board. -/
  boardName : LooseText
  /-- Family of its chip. -/
  family : Family
  /-- Statements for the bus. -/
  bus : Fragment
  /-- Statements for the pins. -/
  pins : Fragment
  /-- Name of the file with the description, or nothing. -/
  source : String

namespace GeneratedUnit

/-- The names that the unit introduces. -/
def bindings (u : GeneratedUnit) : List String := u.bus.bindings ++ u.pins.bindings

/-- The comment that says where the unit comes from. -/
def header (u : GeneratedUnit) : String :=
  if u.source = "" then "// Auto-generated by boardgen -- DO NOT EDIT"
  else "// Auto-generated from " ++ u.source ++ " -- DO NOT EDIT"

/-- The comment that names the board. -/
def title (u : GeneratedUnit) : LooseText :=
  ("// board: " : LooseText) ++ u.boardName ++ (" (" ++ u.family.name ++ ")" : String)

/-- The text behind the two comments. -/
def body (u : GeneratedUnit) : String :=
  String.intercalate "\n"
    ([""] ++ (if u.bus.isEmpty then [] else [u.bus.render "", ""]) ++ [u.pins.render "", ""])

/-- The text of the unit. -/
def render (u : GeneratedUnit) : LooseText :=
  (u.header ++ "\n" : String) ++ u.title ++ ("\n" ++ u.body : String)

end GeneratedUnit

namespace Board

/-- The pins of the keys. -/
def readLayout (b : Board) : Except Failure (Layout Pin) :=
  b.keys.layout.read (Pin.read b.family b.keys.layout.isGrid)

/-- Refuses expander pins on a board whose bus cannot be used. -/
def checkExpanders (bus : Fragment) (pins : List Pin) : Except ConfigError Unit :=
  match pins.find? Pin.isExpander with
  | some p => if Bus.isUsable bus then .ok () else .error (.expanderPinWithoutBus p)
  | none => .ok ()

/-- Compiles a board into a unit.  A pin taken by the bus cannot serve a key too, and a unit
that carries a diagnostic is not given out. -/
def generate (b : Board) (source : String) : Except Failure GeneratedUnit := do
  let layout ← b.readLayout
  let bus ← Bus.build b.family b.bus (layout.toList.any Pin.isExpander)
  Failure.ofConfig (checkExpanders bus layout.toList)
  let claimed ← Bus.claimedPins b.family b.bus bus
  Emit.checkUnique (claimed ++ layout.toList)
  let pins ← Emit.layout b.family layout b.keys.interrupt b.keys.activeLow
  Failure.ofConfig (Fragment.check [bus, pins])
  pure ⟨b.name, b.family, bus, pins, source⟩

end Board

end BoardWiring
