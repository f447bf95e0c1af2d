import BoardWiring.Bus
import BoardWiring.Failure

/-!
# Reading boards

A value is read as a board description: the required fields must be there, and each field must
have the type that it needs.  Entries for pins are not looked at.  A field that is null counts as
missing, except for the address of the expander.

* `KeyWiring.ofValue`, `BusSettings.ofValue` and `Board.ofValue` read the sections and the whole;
* `Board.ofText` does so behind a loader of documents.
-/

namespace BoardWiring

namespace Section

/-- The value of a field, null if it is missing. -/
def field (v : Value) (name : String) : Value := Value.orNull (v.field? name)

/-- The value of a required field. -/
def required (v : Value) (name context : String) : Except ConfigError Value :=
  if (field v name).isNull then
    .error (.invalid ("Missing required field '" ++ name ++ "' in " ++ context ++ " section"))
  else .ok (field v name)

/-- The text of a required field. -/
def requiredText (v : Value) (name context : String) : Except Failure LooseText := do
  let x ← Failure.ofConfig (required v name context)
  x.written

/-- The truth value of a field, `absent` if it is missing. -/
def flag (v : Value) (name context : String) (absent : Bool) : Except ConfigError Bool :=
  match field v name with
  | .null => .ok absent
  | .bool b => .ok b
  | _ => .error (.invalid ("'" ++ context ++ "." ++ name ++ "' must be true or false"))

/-- The entries of a list of pins. -/
def pinList (v : Value) (context : String) : Except ConfigError (List Value) :=
  match v.items? with
  | some entries => .ok entries
  | none => .error (.invalid ("'" ++ context ++ "' must be a list of pin names"))

end Section

namespace KeyWiring

open Section

/-- The rows of a grid. -/
def gridOf (v : Value) : Except ConfigError (List (List Value)) :=
  match v.items? with
  | some (row :: rows) =>
    (row :: rows).zipIdx.mapM fun r =>
      pinList r.1 ("matrix.direct_pins[" ++ Digits.decimal r.2 ++ "]")
  | _ => .error (.invalid "'matrix.direct_pins' must be a non-empty list of rows")

/-- The layout of the keys, which has one of the two forms. -/
def layoutOf (v : Value) : Except ConfigError (Layout Value) := do
  let hasGrid := !(field v "direct_pins").isNull
  let hasRows := !(field v "input_pins").isNull || !(field v "output_pins").isNull
  if hasGrid && hasRows then
    .error (.invalid
      "matrix section must use either input_pins/output_pins or direct_pins, not both")
  else if hasGrid then
    let rows ← gridOf (field v "direct_pins")
    pure (.grid rows)
  else
    let rows ← required v "input_pins" "matrix"
    let rows ← pinList rows "matrix.input_pins"
    let cols ← required v "output_pins" "matrix"
    let cols ← pinList cols "matrix.output_pins"
    pure (.matrix rows cols)

/-- Reads the section on the keys. -/
def ofValue (v : Value) : Except ConfigError KeyWiring :=
  if v.isMapping then do
    let interrupt ← flag v "async_matrix" "matrix" false
    let activeLow ← flag v "active_low" "matrix" false
    let layout ← layoutOf v
    pure ⟨layout, interrupt, activeLow⟩
  else .error (.invalid "matrix section must be a mapping")

end KeyWiring

namespace BusSettings

open Section

/-- The frequency of a bus, null if it is missing. -/
def frequencyOf (v : Value) : Except ConfigError Value :=
  match field v "frequency_khz" with
  | .null => .ok .null
  | .int f => .ok (.int f)
  | f => .error (.validation "'i2c.frequency_khz' must be an integer" f)

/-- The address of the expander; here null does not count as missing. -/
def addressOf (v : Value) : Except ConfigError Int :=
  match (v.field? "expander_address").getD (.int ExpanderPin.minAddress) with
  | .int a => .ok a
  | a => .error (.validation "'i2c.expander_address' must be an integer" a)

/-- Reads the fields of a bus that is enabled. -/
def enabledOf (v : Value) : Except Failure BusSettings := do
  let frequency ← Failure.ofConfig (frequencyOf v)
  let address ← Failure.ofConfig (addressOf v)
  let sda ← requiredText v "sda" "i2c"
  let scl ← requiredText v "scl" "i2c"
  let expander ← Failure.ofConfig (flag v "expander" "i2c" false)
  pure ⟨true, sda.value, scl.value, frequency, expander, address⟩

/-- Reads the section on the bus.  A section that is there is enabled unless it says
otherwise. -/
def ofValue (v : Value) : Except Failure BusSettings :=
  if v.isNull then .ok .none
  else if v.isMapping then do
    let enabled ← Failure.ofConfig (flag v "enabled" "i2c" true)
    if enabled then enabledOf v else pure .none
  else .error (.config (.invalid "i2c section must be a mapping"))

end BusSettings

namespace Board

open Section

/-- The family of a chip that a description names, by what stands before the first half of a
pair: no such half is in the name of a family. -/
def familyOf (chip : LooseText) : Except ConfigError Family :=
  match Family.ofChip? chip.head with
  | some f => .ok f
  | none => .error (.validation ("Unsupported chip " ++ Quoted.loose chip) chip.value)

/-- Reads a board description. -/
def ofValue (v : Value) : Except Failure Board :=
  if v.isMapping then do
    let about ← Failure.ofConfig (required v "board" "root")
    if about.isMapping then
      let name ← requiredText about "name" "board"
      let chip ← requiredText about "chip" "board"
      let family ← Failure.ofConfig (familyOf chip)
      let keys ← Failure.ofConfig (required v "matrix" "root")
      let keys ← Failure.ofConfig (KeyWiring.ofValue keys)
      let bus ← BusSettings.ofValue (field v "i2c")
      pure ⟨name, chip, family, keys, bus⟩
    else .error (.config (.invalid "board section must be a mapping"))
  else .error (.config (.invalid "YAML root must be a mapping"))

/-- The board that the text of a description stands for. -/
def ofText (load : Loader) (text : LooseText) : Except Failure Board :=
  if text.isBlank then .error (.config (.invalid "Empty YAML input"))
  else
    match load text with
    | .ok v => ofValue v
    | .error f => .error f.failure

end Board

end BoardWiring
