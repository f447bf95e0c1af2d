import BoardWiring.GeneratedUnit
import BoardWiring.Log.Level

/-!
# The journal

What is logged while a board is compiled.  The journal of a step that fails ends where the step
fails.

* `Journal.ofBus` and `Journal.ofBoard` are the entries for a bus and for a whole board.
-/

namespace BoardWiring

namespace Journal

/-- An entry of the journal. -/
structure Entry where
  /-- Name of the logger that writes it. -/
  logger : String
  /-- Level. -/
  level : Log.Level
  /-- Text. -/
  text : LooseText

/-- The logger for whole boards. -/
def boardLogger : String := "tools.boardgen.generator"

/-- The logger for the bus. -/
def busLogger : String := "tools.boardgen.bus"

/-- The logger for expander pins. -/
def expanderLogger : String := "tools.boardgen.expander"

/-- The logger for diagnostics. -/
def diagnosticLogger : String := "tools.boardgen.backends"

/-- The loggers of the journal. -/
def loggers : List String := [busLogger, expanderLogger, diagnosticLogger, boardLogger]

/-- The entries for the bus of a board. -/
def ofBus (family : Family) (s : BusSettings) : List Entry :=
  if !s.enabled then []
  else if Bus.isSupported family then
    match Bus.plan family s with
    | .ok p =>
      if Digits.isWritable p.frequency then
        [⟨busLogger, .debug, "I2C on " ++ family.name ++ ": sda=" ++ p.sda.text ++ " scl=" ++
          p.scl.text ++ " " ++ Digits.signed p.frequency ++ " kHz"⟩]
      else []
    | .error _ => []
  else if s.expander then []
  else [⟨busLogger, .warning, "I2C is not supported on " ++ family.name⟩]

/-- A pin that is to be bound to a name in a role. -/
structure Binding where
  /-- Name. -/
  name : String
  /-- Pin. -/
  pin : Pin
  /-- Role. -/
  role : Role

/-- The bindings of a layout, in the order of their statements. -/
def bindings (interrupt : Bool) : Layout Pin → List Binding
  | .matrix rows cols =>
    rows.map (fun p => ⟨p.name, p, .inputFor interrupt⟩) ++
      cols.map (fun p => ⟨p.name, p, .output⟩)
  | .grid rows =>
    rows.zipIdx.flatMap fun r => r.1.zipIdx.filterMap fun p =>
      if p.1 = .absent then none
      else some ⟨Emit.cellName p.1 r.2 p.2, p.1, .inputFor interrupt⟩

/-- The entries for a list of bindings, up to the first that fails. -/
def ofBindings (family : Family) : List Binding → List Entry
  | [] => []
  | b :: bs =>
    match Emit.initialiser family b.pin b.role false with
    | .ok _ =>
      (match b.pin with
        | .expander p =>
          [⟨expanderLogger, .debug, "Using MCP23017 for " ++ b.role.name ++ " pin " ++ p.text⟩]
        | _ => []) ++ ofBindings family bs
    | .error (.config (.unsupportedCapability raw reason)) =>
      ⟨diagnosticLogger, .debug, "diagnostic for " ++ b.name ++ ": " ++
        (ConfigError.unsupportedCapability raw reason).message⟩ :: ofBindings family bs
    | .error _ => []

/-- The layout passes the checks that come before its first statement. -/
def isOrderly : Layout Pin → Bool
  | .matrix rows cols =>
    (Emit.firstRepeat? (rows ++ cols)).isNone && decide (.absent ∉ rows ++ cols)
  | .grid rows => (Emit.firstRagged? rows).isNone && (Emit.firstRepeat? rows.flatten).isNone

/-- The entries for the pins of a board whose bus has been built. -/
def ofPins (b : Board) (layout : Layout Pin) (bus : Fragment) : List Entry :=
  match Board.checkExpanders bus layout.toList, Bus.claimedPins b.family b.bus bus with
  | .ok _, .ok claimed =>
    if (Emit.firstRepeat? (claimed ++ layout.toList)).isNone && isOrderly layout then
      ofBindings b.family (bindings b.keys.interrupt layout)
    else []
  | _, _ => []

/-- The last entry for a board, which only a complete unit gets. -/
def ofUnit (b : Board) : List Entry :=
  match b.generate "" with
  | .ok u =>
    [⟨boardLogger, .debug, "generated " ++ Digits.decimal u.bindings.length ++ " bindings"⟩]
  | .error _ => []

/-- The entries for a board. -/
def ofBoard (b : Board) : List Entry :=
  ⟨boardLogger, .info,
      ("generating " : LooseText) ++ b.name ++ (" for " ++ b.family.name : String)⟩ ::
    match b.readLayout with
    | .error _ => []
    | .ok layout =>
      ofBus b.family b.bus ++
        match Bus.build b.family b.bus (layout.toList.any Pin.isExpander) with
        | .error _ => []
        | .ok bus => ofPins b layout bus ++ ofUnit b

end Journal

end BoardWiring
