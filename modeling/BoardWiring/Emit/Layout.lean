import BoardWiring.Emit.Binding

/-!
# Layouts

The pins of a keyboard stand in rows and columns, or each key has a pin of its own in a grid.

* `Layout` is either form, over entries or over pins;
* `Emit.checkUnique` refuses a pin used a second time: `Emit.firstRepeat?` finds the first;
* `Emit.matrix` and `Emit.grid` are the statements for the two forms, `Emit.layout` for either.
-/

namespace BoardWiring

/-- How the pins of a board are wired. -/
inductive Layout (α : Type) where
  | matrix (rows cols : List α)
  | grid (rows : List (List α))

namespace Layout

variable {α β : Type}

/-- The entries of a layout: rows before columns, a grid row by row. -/
def toList : Layout α → List α
  | .matrix rows cols => rows ++ cols
  | .grid rows => rows.flatten

/-- Each key has a pin of its own. -/
def isGrid : Layout α → Bool
  | .matrix _ _ => false
  | .grid _ => true

/-- The layout in which each entry has been read. -/
def read {ε : Type} (f : α → Except ε β) : Layout α → Except ε (Layout β)
  | .matrix rows cols => do
    let rows ← rows.mapM f
    let cols ← cols.mapM f
    pure (.matrix rows cols)
  | .grid rows => do
    let rows ← rows.mapM fun row => row.mapM f
    pure (.grid rows)

end Layout

namespace Emit

/-! ### Repetitions -/

/-- The first pin that is among `seen` or stands further up in the list. -/
def firstRepeatAfter? (seen : List Pin) : List Pin → Option Pin
  | [] => none
  | .absent :: ps => firstRepeatAfter? seen ps
  | p :: ps => if p ∈ seen then some p else firstRepeatAfter? (p :: seen) ps

/-- The first pin of a list that stands further up in it; absent pins do not count. -/
def firstRepeat? (ps : List Pin) : Option Pin := firstRepeatAfter? [] ps

/-- Refuses a list in which a pin is repeated. -/
def checkUnique (ps : List Pin) : Except Failure Unit :=
  match firstRepeat? ps with
  | some p => .error (p.blamed (.repeated p))
  | none => .ok ()

/-! ### Rows and columns -/

/-- Refuses absent pins. -/
def checkPresent (ps : List Pin) : Except Failure Unit :=
  if .absent ∈ ps then .error (.config .absentOutsideGrid) else .ok ()

/-- One statement for each pin under its own name. -/
def bindAll (family : Family) (ps : List Pin) (role : Role) (activeLow : Bool) :
    Except Failure (List Fragment) :=
  ps.mapM fun p => do
    let name ← ownName p
    bind family name p role activeLow .plain

/-- The sum of statements, followed by the array of the names that they bind. -/
def withArray (name : String) (parts : List Fragment) : Fragment :=
  Fragment.concat parts ++ Fragment.array name (parts.flatMap Fragment.bindings)

/-- The statements for rows and columns.  Rows are inputs, columns are outputs, and only the
rows can wake the processor. -/
def matrix (family : Family) (rows cols : List Pin) (interrupt activeLow : Bool) :
    Except Failure Fragment := do
  checkUnique (rows ++ cols)
  checkPresent (rows ++ cols)
  let inputs ← bindAll family rows (.inputFor interrupt) activeLow
  let outputs ← bindAll family cols .output activeLow
  pure (withArray "input_pins" inputs ++ withArray "output_pins" outputs)

/-! ### Grids -/

/-- The first row that is not as long as the first one: its number and its length. -/
def firstRagged? (rows : List (List Pin)) : Option (Nat × Nat) :=
  (rows.zipIdx.find? fun r => r.1.length != (rows.headD []).length).map fun r =>
    (r.2, r.1.length)

/-- Refuses a grid whose rows are not all of one length. -/
def checkRectangular (rows : List (List Pin)) : Except Failure Unit :=
  match firstRagged? rows with
  | some (row, length) => .error (.config (.raggedRow row length (rows.headD []).length))
  | none => .ok ()

/-- The name for a place of a grid. -/
def cellName (p : Pin) (row col : Nat) : String :=
  p.name ++ "_" ++ Digits.decimal row ++ "_" ++ Digits.decimal col

/-- The statement for a place of a grid. -/
def cell (family : Family) (p : Pin) (row col : Nat) (interrupt activeLow : Bool) :
    Except Failure Fragment := do
  p.checkText
  match p with
  | .absent => .ok (statement (cellName p row col) "None")
  | _ => bind family (cellName p row col) p (.inputFor interrupt) activeLow .some

/-- The name for a row of a grid. -/
def rowName (row : Nat) : String := "direct_pins_row_" ++ Digits.decimal row

/-- The statements for a row of a grid and the array of their names. -/
def gridRow (family : Family) (pins : List Pin) (row : Nat) (interrupt activeLow : Bool) :
    Except Failure Fragment := do
  let cells ← pins.zipIdx.mapM fun p => cell family p.1 row p.2 interrupt activeLow
  pure (Fragment.concat cells ++
    Fragment.array (rowName row) (pins.zipIdx.map fun p => cellName p.1 row p.2))

/-- The statements for a grid: row by row, and last the array of the rows. -/
def grid (family : Family) (rows : List (List Pin)) (interrupt activeLow : Bool) :
    Except Failure Fragment := do
  checkRectangular rows
  checkUnique rows.flatten
  let parts ← rows.zipIdx.mapM fun r => gridRow family r.1 r.2 interrupt activeLow
  pure (Fragment.concat parts ++
    Fragment.array "direct_pins" (rows.zipIdx.map fun r => rowName r.2))

/-- The statements for a layout. -/
def layout (family : Family) (pins : Layout Pin) (interrupt activeLow : Bool) :
    Except Failure Fragment :=
  match pins with
  | .matrix rows cols => matrix family rows cols interrupt activeLow
  | .grid rows => grid family rows interrupt activeLow

end Emit

end BoardWiring
