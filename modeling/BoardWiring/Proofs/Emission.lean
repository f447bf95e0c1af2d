import BoardWiring.Proofs.FragmentSums
import BoardWiring.Proofs.PinReading
import BoardWiring.Proofs.Repetition

/-!
# What the emitters give

The emitters stop at the first fault, and carry on past a pin that cannot wake the processor with
a statement that fails the build.  Once every pin is sound and none is repeated, only a ragged grid
can stop them.

* `Emit.capabilityFault?` says why a pin cannot wake the processor, `Emit.pinFault?` why one whose
  numbers are short (`Emit.isShort`) stops the emitters, and `Emit.stopFault?` why any does;
* `Emit.initialiser_eq_ofFault?` says that a pin is initialised unless it has one of these faults;
* `Emit.statements` are the statements for a layout, and `Emit.layout_eq_ofFault?` says that the
  emitters give them unless the layout stops them (`Emit.layoutFault?`); sound pins do so only in a
  ragged grid (`Emit.layout_eq`);
* `Emit.diagnostics_statements` are the errors that the statements carry;
* `PinLine` is what one line of the statements does, `Emit.lines` are the lines for a layout, and
  `Emit.statements_eq_ofLines` says that they make up its statements if these carry no errors.
-/

namespace BoardWiring

open Outcome

namespace Fragment

@[simp] theorem diagnostics_array (name : String) (items : List String) :
    (array name items).diagnostics = [] := rfl

end Fragment

namespace Emit

variable {family : Family} {pin : Pin} {role : Role} {activeLow interrupt : Bool}

/-! ### Pins -/

/-- The reason why a pin cannot wake the processor. -/
def capabilityFault? (family : Family) : Pin → Option ConfigError
  | .expander p => some (.expanderInterrupt p)
  | .mcu name number =>
    if family = .stm32 ∧ ¬(0 ≤ number ∧ number < 16) then some (.noInterruptLine name number)
    else none
  | .absent => none

theorem line_of_capable {name : String} {number : Int}
    (h : capabilityFault? .stm32 (.mcu name number) = none) : 0 ≤ number ∧ number < 16 := by
  by_contra hline
  have hfault : capabilityFault? .stm32 (.mcu name number) = some (.noInterruptLine name number) :=
    if_pos ⟨rfl, hline⟩
  cases hfault.symm.trans h

theorem lt_of_capable {name : String} {n : Nat}
    (h : capabilityFault? .stm32 (.mcu name n) = none) : n < 16 := by
  have hline := line_of_capable h
  omega

/-- The reason why a pin cannot serve in a role. -/
def roleFault? (family : Family) (pin : Pin) : Role → Option ConfigError
  | .interruptInput => capabilityFault? family pin
  | _ => none

/-- The expression for a pin, if it can serve in its role. -/
def expression (family : Family) (pin : Pin) (role : Role) (activeLow : Bool) : String :=
  match initialiser family pin role activeLow with
  | .ok e => e
  | .error _ => ""

/-- There is no expression for a pin without an interrupt line that should wake the processor. -/
theorem expression_of_no_line {name : String} {number : Int}
    (h : ¬(0 ≤ number ∧ number < interruptLines)) :
    expression .stm32 (.mcu name number) .interruptInput activeLow = "" := by
  simp only [expression, initialiser, interruptInput, if_neg h]
  split_ifs <;> rfl

/-- The numbers that are written for a pin in a role are short enough: the index of a pin of the
expander, and the number of a pin that is to have an interrupt line of its own. -/
def isShort (family : Family) (role : Role) : Pin → Bool
  | .expander p => Digits.isWritable p.index
  | .mcu _ number =>
    decide (family ≠ .stm32) || decide (role ≠ .interruptInput) || Digits.isWritable number
  | .absent => true

/-- The error with which a pin stops the emitters: it is missing, or it is one of the expander with
a number that its bank does not have.  A pin of the expander that is to wake the processor does not
stop them. -/
def pinFault? (pin : Pin) (role : Role) : Option ConfigError :=
  match pin with
  | .absent => some .absentInitialised
  | .expander p =>
    if role = .interruptInput ∨ p.inBank = true then none else some (.expanderIndex p)
  | .mcu _ _ => none

/-- The failure with which a pin stops the emitters. -/
def stopFault? (family : Family) (pin : Pin) (role : Role) : Option Failure :=
  if isShort family role pin then (pinFault? pin role).map .config else some .longInteger

theorem stopFault?_of_short (h : isShort family role pin = true) :
    stopFault? family pin role = (pinFault? pin role).map .config := if_pos h

theorem isShort_of_sound (h : pin.isSound = true) : isShort family role pin = true := by
  cases pin with
  | absent => rfl
  | expander p => exact ExpanderPin.isWritable_of_inBank h
  | mcu name number =>
    have hwritable : Digits.isWritable number = true := h
    rw [isShort, hwritable, Bool.or_true]

theorem stopFault?_of_sound (h : pin.isSound = true) : stopFault? family pin role = none := by
  rw [stopFault?_of_short (isShort_of_sound h)]
  cases pin with
  | absent => cases h
  | expander p => exact congrArg (Option.map _) (if_pos (Or.inr h))
  | mcu name number => rfl

theorem fault?_pin (p : ExpanderPin) (hrole : role ≠ .interruptInput) :
    fault? (Expander.pin p role) = stopFault? family (.expander p) role := by
  by_cases hbank : p.inBank = true
  · have hsound : (Pin.expander p).isSound = true := hbank
    rw [stopFault?_of_sound hsound, Expander.pin, ExpanderPin.number, if_pos hbank]
    rfl
  · have hfault : pinFault? (.expander p) role = some (.expanderIndex p) :=
      if_neg (not_or.2 ⟨hrole, hbank⟩)
    rw [stopFault?, hfault, Expander.pin, ExpanderPin.number, if_neg hbank, Pin.blamed]
    exact apply_ite some _ _ _

theorem fault?_interruptInput (name : String) (number : Int) :
    fault? (interruptInput family name number activeLow) =
      (stopFault? family (.mcu name number) .interruptInput).or
        ((capabilityFault? family (.mcu name number)).map .config) := by
  cases family with
  | stm32 =>
    by_cases hline : 0 ≤ number ∧ number < 16
    · have hshort : Digits.isWritable number = true := Digits.isWritable_of_lt (by omega)
      simp [interruptInput, interruptLines, capabilityFault?, stopFault?, isShort, pinFault?,
        hline, hshort, fault?]
    · cases hshort : Digits.isWritable number <;>
        simp [interruptInput, interruptLines, capabilityFault?, stopFault?, isShort, pinFault?,
          hline, hshort, fault?]
  | nrf52 => rfl
  | rp2040 => rfl
  | esp32 => rfl

/-- A pin has no expression if it stops the emitters, or else if it cannot serve in its role. -/
theorem fault?_initialiser :
    fault? (initialiser family pin role activeLow) =
      (stopFault? family pin role).or ((roleFault? family pin role).map .config) := by
  cases pin with
  | absent => cases role <;> rfl
  | mcu name number =>
    cases role with
    | output => simp [initialiser, stopFault?, isShort, pinFault?, roleFault?, fault?]
    | input => simp [initialiser, stopFault?, isShort, pinFault?, roleFault?, fault?]
    | interruptInput => exact fault?_interruptInput name number
  | expander p =>
    cases role with
    | output => exact (fault?_pin p (by decide)).trans (Option.or_none).symm
    | input => exact (fault?_pin p (by decide)).trans (Option.or_none).symm
    | interruptInput =>
      have hpin : pinFault? (.expander p) .interruptInput = none := by simp [pinFault?]
      have hrole : roleFault? family (.expander p) .interruptInput = some (.expanderInterrupt p) :=
        rfl
      rw [initialiser, fault?, Pin.blamed, stopFault?, hpin, hrole, Pin.isWritable, isShort]
      by_cases hshort : Digits.isWritable p.index = true
      · rw [if_pos hshort, if_pos hshort]
        rfl
      · rw [if_neg hshort, if_neg hshort]
        rfl

/-- **A pin is initialised unless it stops the emitters or cannot serve in its role.** -/
theorem initialiser_eq_ofFault? :
    initialiser family pin role activeLow =
      ofFault? ((stopFault? family pin role).or ((roleFault? family pin role).map .config))
        (expression family pin role activeLow) := by
  rw [← @fault?_initialiser family pin role activeLow, expression]
  cases initialiser family pin role activeLow <;> rfl

theorem initialiser_eq (hstop : stopFault? family pin role = none) :
    initialiser family pin role activeLow =
      match roleFault? family pin role with
      | some e => .error (.config e)
      | none => .ok (expression family pin role activeLow) := by
  rw [initialiser_eq_ofFault?, hstop, Option.none_or]
  cases roleFault? family pin role <;> rfl

/-- The expression for a pin of the expander is the same on every family. -/
theorem expression_expander {p : ExpanderPin} (hp : p.inBank = true)
    (hrole : role ≠ .interruptInput) :
    expression family (.expander p) role activeLow = Expander.pinText p role := by
  have hpin : initialiser family (.expander p) role activeLow = Expander.pin p role := by
    cases role with
    | interruptInput => exact absurd rfl hrole
    | output => rfl
    | input => rfl
  rw [expression, hpin, Expander.pin, ExpanderPin.number, if_pos hp]

/-- The statement that binds a name to a sound pin. -/
def part (family : Family) (name : String) (pin : Pin) (role : Role) (activeLow : Bool)
    (wrap : Wrap) : Fragment :=
  match roleFault? family pin role with
  | some e => Diagnostic.fragment e name
  | none => statement name (wrap.apply (expression family pin role activeLow))

theorem roleFault?_kind {e : ConfigError} (h : roleFault? family pin role = some e) :
    ∃ raw reason, e = .unsupportedCapability raw reason := by
  cases role with
  | output => cases h
  | input => cases h
  | interruptInput =>
    cases pin with
    | absent => cases h
    | expander p =>
      cases h
      exact ⟨_, _, rfl⟩
    | mcu name number =>
      simp only [roleFault?, capabilityFault?] at h
      split_ifs at h
      cases h
      exact ⟨_, _, rfl⟩

theorem stopFault?_ne_unsupported (raw reason : String) :
    stopFault? family pin role ≠ some (.config (.unsupportedCapability raw reason)) := by
  unfold stopFault? pinFault?
  cases pin with
  | absent => simp [isShort, ConfigError.absentInitialised]
  | mcu name number => split_ifs <;> simp
  | expander p => split_ifs <;> simp [ConfigError.expanderIndex]

/-- **A pin is bound unless it stops the emitters.** -/
theorem bind_eq (name : String) (wrap : Wrap) :
    bind family name pin role activeLow wrap =
      ofFault? (stopFault? family pin role) (part family name pin role activeLow wrap) := by
  unfold bind part
  rw [initialiser_eq_ofFault?]
  cases hstop : stopFault? family pin role with
  | none =>
    cases hf : roleFault? family pin role with
    | none => rfl
    | some e =>
      obtain ⟨raw, reason, rfl⟩ := roleFault?_kind hf
      rfl
  | some f =>
    cases f with
    | config e =>
      cases e with
      | unsupportedCapability raw reason => exact absurd hstop (stopFault?_ne_unsupported _ _)
      | _ => rfl
    | _ => rfl

/-- A pin whose spelling cannot be written stops the emitters anyway. -/
theorem checkText_bind (name : String) (wrap : Wrap) :
    (pin.checkText >>= fun _ => bind family name pin role activeLow wrap) =
      bind family name pin role activeLow wrap := by
  cases hwritable : pin.isWritable with
  | true => rw [Pin.checkText_of_isWritable hwritable, ok_bind]
  | false =>
    cases pin with
    | absent => cases hwritable
    | mcu name number => cases hwritable
    | expander p =>
      have hlong : Digits.isWritable p.index = false := hwritable
      rw [bind_eq, stopFault?, isShort, hlong, Pin.checkText, hwritable]
      rfl

theorem ownName_bind (wrap : Wrap) :
    (ownName pin >>= fun name => bind family name pin role activeLow wrap) =
      bind family pin.name pin role activeLow wrap := by
  rw [ownName, bind_assoc]
  exact checkText_bind pin.name wrap

@[simp] theorem diagnostics_part (name : String) (wrap : Wrap) :
    (part family name pin role activeLow wrap).diagnostics =
      (roleFault? family pin role).toList := by
  unfold part
  cases roleFault? family pin role with
  | none => rfl
  | some e =>
    unfold Diagnostic.fragment
    split_ifs <;> rfl

/-! ### Layouts -/

/-- Every pin of a layout can be initialised; a grid may have absent pins. -/
def IsSound (l : Layout Pin) : Prop :=
  ∀ p ∈ l.toList, p.isSound = true ∨ p = .absent ∧ l.isGrid = true

/-- The statement for a place of a grid. -/
def cellPart (family : Family) (p : Pin) (row col : Nat) (interrupt activeLow : Bool) :
    Fragment :=
  if p = .absent then statement (cellName p row col) "None"
  else part family (cellName p row col) p (.inputFor interrupt) activeLow .some

/-- The statements for a row of a grid. -/
def rowPart (family : Family) (pins : List Pin) (row : Nat) (interrupt activeLow : Bool) :
    Fragment :=
  Fragment.concat (pins.zipIdx.map fun p => cellPart family p.1 row p.2 interrupt activeLow) ++
    Fragment.array (rowName row) (pins.zipIdx.map fun p => cellName p.1 row p.2)

/-- One statement for each pin, under its own name. -/
def parts (family : Family) (ps : List Pin) (role : Role) (activeLow : Bool) : List Fragment :=
  ps.map fun p => part family p.name p role activeLow .plain

/-- The statements for a layout. -/
def statements (family : Family) (interrupt activeLow : Bool) : Layout Pin → Fragment
  | .matrix rows cols =>
    withArray "input_pins" (parts family rows (.inputFor interrupt) activeLow) ++
      withArray "output_pins" (parts family cols .output activeLow)
  | .grid rows =>
    Fragment.concat (rows.zipIdx.map fun r => rowPart family r.1 r.2 interrupt activeLow) ++
      Fragment.array "direct_pins" (rows.zipIdx.map fun r => rowName r.2)

/-- The error of a grid whose rows are not all of one length. -/
def raggedFault? : Layout Pin → Option ConfigError
  | .matrix _ _ => none
  | .grid rows =>
    (firstRagged? rows).map fun r => .raggedRow r.1 r.2 (rows.headD []).length

/-- The failure with which a place of a grid stops the emitters; a place without a pin does not. -/
def placeFault? (family : Family) (interrupt : Bool) (p : Pin) : Option Failure :=
  if p = .absent then none else stopFault? family p (.inputFor interrupt)

/-- The failure of a list in which a pin is repeated. -/
def repeatFault? (ps : List Pin) : Option Failure :=
  (firstRepeat? ps).map fun p => p.blamed (.repeated p)

/-- The error of a list with absent pins. -/
def absentFault? (ps : List Pin) : Option ConfigError :=
  if .absent ∈ ps then some .absentOutsideGrid else none

/-- The failure with which a layout stops the emitters. -/
def layoutFault? (family : Family) (interrupt : Bool) : Layout Pin → Option Failure
  | .matrix rows cols =>
    (repeatFault? (rows ++ cols)).or <| ((absentFault? (rows ++ cols)).map .config).or <|
      (rows.findSome? fun p => stopFault? family p (.inputFor interrupt)).or
        (cols.findSome? fun p => stopFault? family p .output)
  | .grid rows =>
    ((raggedFault? (.grid rows)).map .config).or <| (repeatFault? rows.flatten).or <|
      rows.flatten.findSome? (placeFault? family interrupt)

theorem bindAll_eq (ps : List Pin) :
    bindAll family ps role activeLow =
      ofFault? (ps.findSome? fun p => stopFault? family p role) (parts family ps role activeLow) :=
  mapM_eq_ofFault? fun p _ => (ownName_bind .plain).trans (bind_eq p.name .plain)

theorem cell_eq (p : Pin) (row col : Nat) :
    cell family p row col interrupt activeLow =
      ofFault? (placeFault? family interrupt p)
        (cellPart family p row col interrupt activeLow) := by
  by_cases habsent : p = .absent
  · subst habsent
    rfl
  · have hcell : cell family p row col interrupt activeLow = (p.checkText >>= fun _ =>
        bind family (cellName p row col) p (.inputFor interrupt) activeLow .some) := by
      cases p with
      | absent => exact absurd rfl habsent
      | mcu name number => rfl
      | expander e => rfl
    rw [hcell, checkText_bind, bind_eq, placeFault?, cellPart, if_neg habsent, if_neg habsent]

theorem findSome?_zipIdx {α β : Type} (f : α → Option β) (xs : List α) :
    (xs.zipIdx.findSome? fun x => f x.1) = xs.findSome? f := by
  have hmap : xs.findSome? f = (xs.zipIdx.map Prod.fst).findSome? f := by
    rw [List.zipIdx_map_fst]
  rw [hmap, List.findSome?_map]
  rfl

theorem findSome?_flatten {α β : Type} (f : α → Option β) (rows : List (List α)) :
    (rows.findSome? fun row => row.findSome? f) = rows.flatten.findSome? f := by
  induction rows with
  | nil => rfl
  | cons row rows ih =>
    rw [List.findSome?_cons, ih, List.flatten_cons, List.findSome?_append]
    cases row.findSome? f <;> rfl

theorem gridRow_eq (ps : List Pin) (row : Nat) :
    gridRow family ps row interrupt activeLow =
      ofFault? (ps.findSome? (placeFault? family interrupt))
        (rowPart family ps row interrupt activeLow) := by
  have hcells : (ps.zipIdx.mapM fun p => cell family p.1 row p.2 interrupt activeLow) = _ :=
    mapM_eq_ofFault? fun p _ => cell_eq p.1 row p.2
  rw [gridRow, hcells, findSome?_zipIdx]
  cases ps.findSome? (placeFault? family interrupt) <;> rfl

theorem checkUnique_eq (ps : List Pin) : checkUnique ps = ofFault? (repeatFault? ps) () := by
  unfold checkUnique repeatFault?
  cases firstRepeat? ps <;> rfl

theorem checkUnique_eq_ok_iff {ps : List Pin} :
    checkUnique ps = .ok () ↔ firstRepeat? ps = none := by
  unfold checkUnique
  cases firstRepeat? ps <;> simp

theorem checkUnique_pair (hp : pin ≠ .absent) :
    checkUnique [pin, pin] = .error (pin.blamed (.repeated pin)) := by
  have hrepeat : firstRepeat? [pin, pin] = some pin := by
    cases pin with
    | absent => exact absurd rfl hp
    | mcu name number => simp [firstRepeat?, firstRepeatAfter?]
    | expander p => simp [firstRepeat?, firstRepeatAfter?]
  rw [checkUnique, hrepeat]

/-- A pin with too long an index, which no message can name. -/
def endlessPin : Pin := .expander ⟨0x20, .a, Digits.overlong⟩

theorem checkUnique_endlessPin : checkUnique [endlessPin, endlessPin] = .error .longInteger := by
  have hlong : endlessPin.isWritable = false := Digits.isWritable_overlong
  rw [checkUnique_pair Pin.noConfusion, Pin.blamed_of_not_isWritable hlong]

theorem checkPresent_eq (ps : List Pin) :
    checkPresent ps = ofFault? ((absentFault? ps).map .config) () := by
  unfold checkPresent absentFault?
  split_ifs <;> rfl

theorem checkRectangular_eq (rows : List (List Pin)) :
    checkRectangular rows = ofFault? ((raggedFault? (.grid rows)).map .config) () := by
  cases hf : firstRagged? rows with
  | none => simp [checkRectangular, raggedFault?, hf]
  | some r => simp [checkRectangular, raggedFault?, hf]

theorem matrix_eq (rows cols : List Pin) :
    matrix family rows cols interrupt activeLow =
      ofFault? (layoutFault? family interrupt (.matrix rows cols))
        (statements family interrupt activeLow (.matrix rows cols)) := by
  rw [matrix, checkUnique_eq, checkPresent_eq, bindAll_eq, bindAll_eq, layoutFault?,
    ofFault?_or _ _ (), ofFault?_or _ _ (), ofFault?_or _ _ (parts family rows _ activeLow)]
  cases rows.findSome? fun p => stopFault? family p (.inputFor interrupt) with
  | some e => rfl
  | none => cases cols.findSome? fun p => stopFault? family p .output <;> rfl

theorem grid_eq (rows : List (List Pin)) :
    grid family rows interrupt activeLow =
      ofFault? (layoutFault? family interrupt (.grid rows))
        (statements family interrupt activeLow (.grid rows)) := by
  have hrows : (rows.zipIdx.mapM fun r => gridRow family r.1 r.2 interrupt activeLow) = _ :=
    mapM_eq_ofFault? fun r _ => gridRow_eq r.1 r.2
  rw [grid, checkRectangular_eq, checkUnique_eq, hrows,
    findSome?_zipIdx fun row : List Pin => row.findSome? (placeFault? family interrupt),
    findSome?_flatten, layoutFault?, ofFault?_or _ _ (), ofFault?_or _ _ ()]
  cases rows.flatten.findSome? (placeFault? family interrupt) <;> rfl

/-- **The emitters give the statements for a layout unless it stops them.** -/
theorem layout_eq_ofFault? (l : Layout Pin) :
    layout family l interrupt activeLow =
      ofFault? (layoutFault? family interrupt l) (statements family interrupt activeLow l) := by
  cases l with
  | matrix rows cols => exact matrix_eq rows cols
  | grid rows => exact grid_eq rows

/-- Sound pins without repetitions stop the emitters only in a ragged grid. -/
theorem layoutFault?_of_sound {l : Layout Pin} (hs : IsSound l)
    (hu : firstRepeat? l.toList = none) :
    layoutFault? family interrupt l = (raggedFault? l).map .config := by
  cases l with
  | matrix rows cols =>
    have hsound : ∀ p ∈ rows ++ cols, p.isSound = true := by
      intro p hp
      rcases hs p hp with h | ⟨-, h⟩
      · exact h
      · cases h
    have hpresent : Pin.absent ∉ rows ++ cols := fun h => by cases hsound _ h
    have hrows : (rows.findSome? fun p => stopFault? family p (.inputFor interrupt)) = none :=
      List.findSome?_eq_none_iff.2 fun p hp =>
        stopFault?_of_sound (hsound p (List.mem_append_left _ hp))
    have hcols : (cols.findSome? fun p => stopFault? family p .output) = none :=
      List.findSome?_eq_none_iff.2 fun p hp =>
        stopFault?_of_sound (hsound p (List.mem_append_right _ hp))
    have hrepeat : repeatFault? (rows ++ cols) = none := congrArg (Option.map _) hu
    rw [layoutFault?, hrepeat, absentFault?, if_neg hpresent, hrows, hcols]
    rfl
  | grid rows =>
    have hplaces : rows.flatten.findSome? (placeFault? family interrupt) = none := by
      refine List.findSome?_eq_none_iff.2 fun p hp => ?_
      rcases hs p hp with h | ⟨h, -⟩
      · rw [placeFault?, stopFault?_of_sound h, ite_self]
      · exact if_pos h
    have hrepeat : repeatFault? rows.flatten = none := congrArg (Option.map _) hu
    rw [layoutFault?, hrepeat, hplaces, Option.or_none, Option.or_none]

/-- **Sound pins without repetitions are emitted, unless a row of the grid is ragged.** -/
theorem layout_eq {l : Layout Pin} (hs : IsSound l) (hu : firstRepeat? l.toList = none) :
    layout family l interrupt activeLow =
      match raggedFault? l with
      | some e => .error (.config e)
      | none => .ok (statements family interrupt activeLow l) := by
  rw [layout_eq_ofFault?, layoutFault?_of_sound hs hu]
  cases raggedFault? l <;> rfl

/-! ### Errors carried -/

theorem diagnostics_cellPart (p : Pin) (row col : Nat) :
    (cellPart family p row col interrupt activeLow).diagnostics =
      (roleFault? family p (.inputFor interrupt)).toList := by
  unfold cellPart
  split_ifs with hp
  · subst hp
    cases interrupt <;> rfl
  · exact diagnostics_part _ _

theorem diagnostics_rowPart (ps : List Pin) (row : Nat) :
    (rowPart family ps row interrupt activeLow).diagnostics =
      ps.flatMap fun p => (roleFault? family p (.inputFor interrupt)).toList := by
  simp only [rowPart, Fragment.diagnostics_append, Fragment.diagnostics_concat,
    Fragment.diagnostics_array, List.append_nil, List.flatMap_map, diagnostics_cellPart]
  rw [← List.flatMap_map Prod.fst fun p => (roleFault? family p (.inputFor interrupt)).toList,
    List.zipIdx_map_fst]

theorem diagnostics_parts (ps : List Pin) (role : Role) :
    (parts family ps role activeLow).flatMap Fragment.diagnostics =
      ps.flatMap fun p => (roleFault? family p role).toList := by
  simp only [parts, List.flatMap_map, diagnostics_part]

theorem diagnostics_statements (l : Layout Pin) :
    (statements family interrupt activeLow l).diagnostics =
      l.inputs.flatMap fun p => (roleFault? family p (.inputFor interrupt)).toList := by
  cases l with
  | matrix rows cols =>
    have hcols : (cols.flatMap fun p => (roleFault? family p .output).toList) = [] := by
      simp [roleFault?]
    simp only [statements, withArray, Fragment.diagnostics_append, Fragment.diagnostics_concat,
      Fragment.diagnostics_array, List.append_nil, diagnostics_parts, hcols, Layout.inputs]
  | grid rows =>
    simp only [statements, Fragment.diagnostics_append, Fragment.diagnostics_concat,
      Fragment.diagnostics_array, List.append_nil, List.flatMap_map, diagnostics_rowPart,
      Layout.inputs]
    rw [← List.flatMap_map Prod.fst fun ps : List Pin =>
      ps.flatMap fun p => (roleFault? family p (.inputFor interrupt)).toList, List.zipIdx_map_fst,
      ← List.flatMap_id, List.flatMap_assoc]
    rfl

end Emit

/-! ### Lines -/

/-- What a line of the statements for the pins does: it binds a pin, or nothing, or a list of the
names bound before. -/
inductive PinLine where
  | bound (name : String) (pin : Pin) (role : Role) (wrap : Emit.Wrap)
  | empty (name : String)
  | array (name : String) (items : List String)

namespace PinLine

/-- The name that a line introduces. -/
def name : PinLine → String
  | .bound name _ _ _ => name
  | .empty name => name
  | .array name _ => name

/-- What a line computes. -/
def value (family : Family) (activeLow : Bool) : PinLine → String
  | .bound _ pin role wrap => wrap.apply (Emit.expression family pin role activeLow)
  | .empty _ => "None"
  | .array _ items => "[" ++ String.intercalate ", " items ++ "]"

/-- The text of a line. -/
def text (family : Family) (activeLow : Bool) (l : PinLine) : String :=
  "let " ++ l.name ++ " = " ++ l.value family activeLow ++ ";"

end PinLine

namespace Emit

variable {family : Family} {activeLow interrupt : Bool}

/-- The line for a place of a grid. -/
def cellLine (interrupt : Bool) (p : Pin) (row col : Nat) : PinLine :=
  if p = .absent then .empty (cellName p row col)
  else .bound (cellName p row col) p (.inputFor interrupt) .some

/-- The lines for a row of a grid. -/
def rowLines (interrupt : Bool) (ps : List Pin) (row : Nat) : List PinLine :=
  (ps.zipIdx.map fun p => cellLine interrupt p.1 row p.2) ++
    [.array (rowName row) (ps.zipIdx.map fun p => cellName p.1 row p.2)]

/-- The lines for pins under their own names, and the array of these names. -/
def matrixLines (array : String) (ps : List Pin) (role : Role) : List PinLine :=
  (ps.map fun p => .bound p.name p role .plain) ++ [.array array (ps.map Pin.name)]

/-- The lines for a layout. -/
def lines (interrupt : Bool) : Layout Pin → List PinLine
  | .matrix rows cols =>
    matrixLines "input_pins" rows (.inputFor interrupt) ++ matrixLines "output_pins" cols .output
  | .grid rows =>
    (rows.zipIdx.flatMap fun r => rowLines interrupt r.1 r.2) ++
      [.array "direct_pins" (rows.zipIdx.map fun r => rowName r.2)]

/-- The fragment of some lines. -/
def ofLines (family : Family) (activeLow : Bool) (ls : List PinLine) : Fragment :=
  Fragment.ofLines (ls.map (PinLine.text family activeLow)) (ls.map PinLine.name)

@[simp] theorem ofLines_append (ls ms : List PinLine) :
    ofLines family activeLow (ls ++ ms) =
      ofLines family activeLow ls ++ ofLines family activeLow ms := by
  simp only [ofLines, Fragment.ofLines, List.map_append]
  rfl

theorem concat_ofLines {α : Type} (f : α → List PinLine) (xs : List α) :
    Fragment.concat (xs.map fun x => ofLines family activeLow (f x)) =
      ofLines family activeLow (xs.flatMap f) := by
  induction xs with
  | nil => rfl
  | cons x xs ih =>
    rw [List.flatMap_cons, ofLines_append, ← ih]
    rfl

theorem array_eq_ofLines (name : String) (items : List String) :
    Fragment.array name items = ofLines family activeLow [.array name items] := by
  have hopen : " = [" = " = " ++ "[" := rfl
  have hclose : "];" = "]" ++ ";" := rfl
  simp only [Fragment.array, ofLines, PinLine.text, PinLine.value, PinLine.name, List.map_cons,
    List.map_nil, hopen, hclose, String.append_assoc]

theorem part_eq_ofLines {pin : Pin} {role : Role} (h : roleFault? family pin role = none)
    (name : String) (wrap : Wrap) :
    part family name pin role activeLow wrap =
      ofLines family activeLow [.bound name pin role wrap] := by
  rw [part, h]
  rfl

theorem parts_withArray {ps : List Pin} {role : Role}
    (h : ∀ p ∈ ps, roleFault? family p role = none) (name : String) :
    withArray name (parts family ps role activeLow) =
      ofLines family activeLow (matrixLines name ps role) := by
  have hparts : parts family ps role activeLow =
      ps.map fun p => ofLines family activeLow [.bound p.name p role .plain] :=
    List.map_congr_left fun p hp => part_eq_ofLines (h p hp) p.name .plain
  have hnames : (parts family ps role activeLow).flatMap Fragment.bindings = ps.map Pin.name := by
    rw [hparts, List.flatMap_map, List.map_eq_flatMap]
    rfl
  rw [withArray, hnames, hparts, concat_ofLines, array_eq_ofLines, ← ofLines_append]
  simp only [matrixLines, List.map_eq_flatMap]

theorem cellPart_eq_ofLines {p : Pin} (h : roleFault? family p (.inputFor interrupt) = none)
    (row col : Nat) :
    cellPart family p row col interrupt activeLow =
      ofLines family activeLow [cellLine interrupt p row col] := by
  unfold cellPart cellLine
  split_ifs with hp
  · rfl
  · exact part_eq_ofLines h _ _

theorem rowPart_eq_ofLines {ps : List Pin}
    (h : ∀ p ∈ ps, roleFault? family p (.inputFor interrupt) = none) (row : Nat) :
    rowPart family ps row interrupt activeLow =
      ofLines family activeLow (rowLines interrupt ps row) := by
  have hcells : (ps.zipIdx.map fun p => cellPart family p.1 row p.2 interrupt activeLow) =
      ps.zipIdx.map fun p => ofLines family activeLow [cellLine interrupt p.1 row p.2] :=
    List.map_congr_left fun p hp =>
      cellPart_eq_ofLines (h p.1 (List.fst_mem_of_mem_zipIdx hp)) row p.2
  rw [rowPart, hcells, concat_ofLines, array_eq_ofLines, ← ofLines_append]
  simp only [rowLines, List.map_eq_flatMap]

/-- **Without errors, the statements for a layout are its lines.** -/
theorem statements_eq_ofLines {l : Layout Pin}
    (h : ∀ p ∈ l.inputs, roleFault? family p (.inputFor interrupt) = none) :
    statements family interrupt activeLow l = ofLines family activeLow (lines interrupt l) := by
  cases l with
  | matrix rows cols =>
    have hrows : ∀ p ∈ rows, roleFault? family p (.inputFor interrupt) = none := h
    have hcols : ∀ p ∈ cols, roleFault? family p .output = none := fun _ _ => rfl
    rw [statements, parts_withArray hrows, parts_withArray hcols, ← ofLines_append]
    rfl
  | grid rows =>
    have hrows : (rows.zipIdx.map fun r => rowPart family r.1 r.2 interrupt activeLow) =
        rows.zipIdx.map fun r => ofLines family activeLow (rowLines interrupt r.1 r.2) :=
      List.map_congr_left fun r hr => rowPart_eq_ofLines (fun p hp =>
        h p (List.mem_flatten_of_mem (List.fst_mem_of_mem_zipIdx hr) hp)) r.2
    rw [statements, hrows, concat_ofLines, array_eq_ofLines, ← ofLines_append]
    rfl

theorem bound_mem_matrixLines {array name : String} {ps : List Pin} {pin : Pin} {role role' : Role}
    {wrap : Wrap} (h : .bound name pin role' wrap ∈ matrixLines array ps role) :
    pin ∈ ps ∧ role' = role := by
  rcases List.mem_append.1 h with h | h
  · obtain ⟨p, hp, hbound⟩ := List.mem_map.1 h
    cases hbound
    exact ⟨hp, rfl⟩
  · cases List.mem_singleton.1 h

theorem bound_mem_rowLines {name : String} {ps : List Pin} {row : Nat} {pin : Pin} {role : Role}
    {wrap : Wrap} (h : .bound name pin role wrap ∈ rowLines interrupt ps row) :
    pin ∈ ps ∧ pin ≠ .absent ∧ role = .inputFor interrupt := by
  rcases List.mem_append.1 h with h | h
  · obtain ⟨q, hq, hbound⟩ := List.mem_map.1 h
    unfold cellLine at hbound
    split_ifs at hbound with habsent
    cases hbound
    exact ⟨List.fst_mem_of_mem_zipIdx hq, habsent, rfl⟩
  · cases List.mem_singleton.1 h

/-- The pins that the lines bind are sound pins of the layout, and all but the columns of a matrix
serve as inputs. -/
theorem bound_mem_lines {l : Layout Pin} (hs : IsSound l) {name : String} {pin : Pin} {role : Role}
    {wrap : Wrap} (h : .bound name pin role wrap ∈ lines interrupt l) :
    pin.isSound = true ∧ pin ∈ l.toList ∧
      (role = .output ∨ role = .inputFor interrupt ∧ pin ∈ l.inputs) := by
  cases l with
  | matrix rows cols =>
    have hsound : ∀ p ∈ rows ++ cols, p.isSound = true := fun p hp =>
      (hs p hp).elim id fun hgrid => by cases hgrid.2
    rcases List.mem_append.1 h with h | h
    · obtain ⟨hp, hrole⟩ := bound_mem_matrixLines h
      have hmem := List.mem_append_left cols hp
      exact ⟨hsound pin hmem, hmem, Or.inr ⟨hrole, hp⟩⟩
    · obtain ⟨hp, hrole⟩ := bound_mem_matrixLines h
      have hmem := List.mem_append_right rows hp
      exact ⟨hsound pin hmem, hmem, Or.inl hrole⟩
  | grid rows =>
    rcases List.mem_append.1 h with h | h
    · obtain ⟨r, hr, h⟩ := List.mem_flatMap.1 h
      obtain ⟨hp, hpresent, hrole⟩ := bound_mem_rowLines h
      have hmem := List.mem_flatten_of_mem (List.fst_mem_of_mem_zipIdx hr) hp
      exact ⟨(hs pin hmem).elim id fun hgrid => absurd hgrid.1 hpresent, hmem,
        Or.inr ⟨hrole, hmem⟩⟩
    · cases List.mem_singleton.1 h

end Emit

end BoardWiring
