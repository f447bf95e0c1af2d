import BoardWiring.Proofs.StatementReading
import Mathlib.Data.List.Basic

/-!
# The code for rows and columns

The emitter for rows and columns is given pins that nobody has checked.  Its faults can be listed
without running it, and without faults its code is one line for each pin and two arrays.

* `Emit.matrixFaults` are the faults of rows and columns, in the order in which they count;
  `Emit.repeatFaults`, `Emit.absentFaults` and `Emit.indexFaults` are those of each kind;
* `Emit.part_eq` says what the statement for a pin is that does not stop the emitters;
* `Emit.IsPinLine` says what it means that a line initialises a pin in a role;
* `Emit.matrix_faithful` says that the emitter reports the first fault, and that its code is
  otherwise faithful to the rows and columns (`Emit.IsMatrixCode`).
-/

namespace BoardWiring

open Code Name Outcome

/-- The pin of the expander, if it is one. -/
def Pin.expander? : Pin → Option ExpanderPin
  | .expander p => some p
  | _ => none

namespace Emit

variable {family : Family} {pin : Pin} {role : Role} {activeLow interrupt : Bool} {name : String}

/-! ### Faults -/

/-- Pins that stand further up in a list, but for absent ones. -/
def repeatFaults (ps : List Pin) : List ConfigError :=
  (ps.zipIdx.filter (isRepeat ps)).map fun q => .repeated q.1

/-- Absent pins. -/
def absentFaults (ps : List Pin) : List ConfigError :=
  (ps.filter (· = .absent)).map fun _ => .absentOutsideGrid

/-- Pins of the expander with a number that their bank does not have. -/
def indexFaults (ps : List ExpanderPin) : List ConfigError :=
  (ps.filter fun p => ¬(0 ≤ p.index ∧ p.index ≤ 7)).map .expanderIndex

/-- The pins of the expander that are called for inputs.  One that was to wake the processor is
not called. -/
def calledInputs (interrupt : Bool) (ps : List Pin) : List ExpanderPin :=
  if interrupt then [] else ps.filterMap Pin.expander?

/-- What is wrong with rows and columns, in the order in which it counts. -/
def matrixFaults (interrupt : Bool) (rows cols : List Pin) : List ConfigError :=
  repeatFaults (rows ++ cols) ++ (absentFaults (rows ++ cols) ++
    indexFaults (calledInputs interrupt rows ++ cols.filterMap Pin.expander?))

theorem isWritable_of_isShort (h : isShort family role pin = true) : pin.isWritable = true := by
  cases pin with
  | mcu => rfl
  | absent => rfl
  | expander => exact h

/-- The error of a place for which a pin is called; one without a pin has none. -/
def placeError? (interrupt : Bool) (p : Pin) : Option ConfigError :=
  if p = .absent then none else pinFault? p (.inputFor interrupt)

theorem findSome?_stopFault? {ps : List Pin} (h : ∀ p ∈ ps, isShort family role p = true) :
    (ps.findSome? fun p => stopFault? family p role) =
      (ps.findSome? fun p => pinFault? p role).map .config := by
  induction ps with
  | nil => rfl
  | cons p ps ih =>
    obtain ⟨hp, hps⟩ := List.forall_mem_cons.1 h
    rw [List.findSome?_cons, List.findSome?_cons, stopFault?_of_short hp, ih hps]
    cases pinFault? p role <;> rfl

theorem head?_repeatFaults {ps : List Pin} (h : ∀ p ∈ ps, p.isWritable = true) :
    (repeatFaults ps).head?.map .config = repeatFault? ps := by
  rw [repeatFaults, List.head?_map, List.head?_filter, repeatFault?, firstRepeat?_eq_find?]
  cases hfound : ps.zipIdx.find? (isRepeat ps) with
  | none => rfl
  | some q =>
    have hmem : q.1 ∈ ps := List.fst_mem_of_mem_zipIdx (List.mem_of_find?_eq_some hfound)
    simp only [Option.map_some, Pin.blamed_of_isWritable (h q.1 hmem)]

theorem head?_absentFaults (ps : List Pin) : (absentFaults ps).head? = absentFault? ps := by
  rw [absentFaults, List.head?_map, List.head?_filter, absentFault?]
  cases hfound : ps.find? fun p => p = .absent with
  | none =>
    have hpresent : .absent ∉ ps := fun hmem => List.find?_eq_none.1 hfound _ hmem (by decide)
    rw [if_neg hpresent]
    rfl
  | some p =>
    have habsent : p = .absent := by simpa using List.find?_some hfound
    have hmem : .absent ∈ ps := habsent ▸ List.mem_of_find?_eq_some hfound
    rw [if_pos hmem]
    rfl

theorem indexFaults_append (ps qs : List ExpanderPin) :
    indexFaults (ps ++ qs) = indexFaults ps ++ indexFaults qs := by
  rw [indexFaults, List.filter_append, List.map_append]
  rfl

/-- A pin that is not to wake the processor stops the emitters by its number only. -/
theorem indexFaults_expanders (ps : List Pin) :
    indexFaults (ps.filterMap Pin.expander?) = ps.filterMap (placeError? false) := by
  induction ps with
  | nil => rfl
  | cons p ps ih =>
    cases p with
    | absent => exact ih
    | mcu name number => exact ih
    | expander e =>
      have hcalled : indexFaults ((Pin.expander e :: ps).filterMap Pin.expander?) =
          indexFaults [e] ++ indexFaults (ps.filterMap Pin.expander?) :=
        indexFaults_append [e] _
      have hfault : (placeError? false (.expander e)).toList = indexFaults [e] := by
        rw [placeError?, if_neg Pin.noConfusion, pinFault?]
        by_cases hbank : 0 ≤ e.index ∧ e.index ≤ 7
        · have hinBank : e.inBank = true := ExpanderPin.inBank_iff.2 hbank
          rw [if_pos (Or.inr hinBank), indexFaults,
            List.filter_cons_of_neg (by rwa [decide_eq_true_eq, not_not])]
          rfl
        · have hinBank : ¬e.inBank = true := mt ExpanderPin.inBank_iff.1 hbank
          rw [if_neg (not_or.2 ⟨by decide, hinBank⟩), indexFaults,
            List.filter_cons_of_pos (by rwa [decide_eq_true_eq])]
          rfl
      rw [hcalled, ← hfault, ih, List.filterMap_eq_flatMap_toList,
        List.filterMap_eq_flatMap_toList, List.flatMap_cons]

theorem indexFaults_calledInputs (ps : List Pin) :
    indexFaults (calledInputs interrupt ps) = ps.filterMap (placeError? interrupt) := by
  cases interrupt with
  | false => exact indexFaults_expanders ps
  | true =>
    have hnone : ps.filterMap (placeError? true) = [] := by
      rw [List.filterMap_eq_nil_iff]
      intro p _
      cases p <;> rfl
    rw [hnone]
    rfl

/-- **The first of the faults is the one with which the emitter stops.** -/
theorem head?_matrixFaults {rows cols : List Pin}
    (hrows : ∀ p ∈ rows, isShort family (.inputFor interrupt) p = true)
    (hcols : ∀ p ∈ cols, isShort family .output p = true) :
    (matrixFaults interrupt rows cols).head?.map .config =
      layoutFault? family interrupt (.matrix rows cols) := by
  have hwritable : ∀ p ∈ rows ++ cols, p.isWritable = true := fun p hp =>
    (List.mem_append.1 hp).elim (fun hp => isWritable_of_isShort (hrows p hp))
      fun hp => isWritable_of_isShort (hcols p hp)
  have hbehind : (absentFaults (rows ++ cols) ++
      indexFaults (calledInputs interrupt rows ++ cols.filterMap Pin.expander?)).head? =
        (absentFault? (rows ++ cols)).or ((rows.findSome? fun p => pinFault? p
          (.inputFor interrupt)).or (cols.findSome? fun p => pinFault? p .output)) := by
    rw [List.head?_append, head?_absentFaults]
    by_cases hmem : .absent ∈ rows ++ cols
    · rw [absentFault?, if_pos hmem, Option.some_or, Option.some_or]
    have hpresent : rows.filterMap (placeError? interrupt) =
        rows.filterMap fun p => pinFault? p (.inputFor interrupt) := by
      refine List.filterMap_congr fun p hp => if_neg ?_
      rintro rfl
      exact hmem (List.mem_append_left _ hp)
    have hcalled : cols.filterMap (placeError? false) =
        cols.filterMap fun p => pinFault? p .output := by
      refine List.filterMap_congr fun p hp => ?_
      cases p with
      | absent => exact absurd (List.mem_append_right _ hp) hmem
      | mcu name number => rfl
      | expander e => simp [placeError?, pinFault?, Role.inputFor]
    rw [indexFaults_append, indexFaults_calledInputs, indexFaults_expanders, hpresent, hcalled,
      List.head?_append, List.head?_filterMap, List.head?_filterMap]
  rw [matrixFaults, List.head?_append, hbehind, layoutFault?, findSome?_stopFault? hrows,
    findSome?_stopFault? hcols, ← head?_repeatFaults hwritable]
  simp only [Option.map_or]

/-! ### Statements -/

/-- What a pin is given in its place: the expression for it, or the reason why there is none. -/
def value (family : Family) (pin : Pin) (role : Role) (activeLow : Bool) (wrap : Wrap) : String :=
  match initialiser family pin role activeLow with
  | .ok e => wrap.apply e
  | .error (.config e) => Diagnostic.expression e.message
  | .error _ => ""

/-- The line that gives a name to a value. -/
def line (name value : String) : String := "let " ++ name ++ " = " ++ value ++ ";"

/-- The line that gives a name to a list of others. -/
def arrayLine (name : String) (items : List String) : String :=
  line name ("[" ++ String.intercalate ", " items ++ "]")

theorem array_eq (name : String) (items : List String) :
    Fragment.array name items = Fragment.ofLines [arrayLine name items] [name] :=
  array_eq_statement name items

/-- The statement for a pin is one line, with an error if the pin cannot serve in its role. -/
theorem part_eq (hname : IsWord name) (hstop : stopFault? family pin role = none) (wrap : Wrap) :
    part family name pin role activeLow wrap =
      ⟨[line name (value family pin role activeLow wrap)], [name],
        (roleFault? family pin role).toList, false⟩ := by
  have hne : name ≠ "" := by
    rintro rfl
    exact hname.ne_nil rfl
  rw [part, value, initialiser_eq hstop]
  cases roleFault? family pin role with
  | none => rfl
  | some e => exact if_neg hne

/-- The line for a pin under its own name. -/
def pinLine (family : Family) (role : Role) (activeLow : Bool) (p : Pin) : String :=
  line p.name (value family p role activeLow .plain)

/-- A line initialises a pin in a role: it gives the name of the pin to the expression for it,
which begins with the words of the role, or fails the build with the reason why the pin cannot
serve. -/
inductive IsPinLine (family : Family) (role : Role) (activeLow : Bool) (p : Pin) : String → Prop
  | initialised {e rest : String} (capable : roleFault? family p role = none)
      (expression : initialiser family p role activeLow = .ok e)
      (words : e = Form.opening family (Form.of family role p) ++ rest) :
      IsPinLine family role activeLow p (line p.name e)
  | failing {e : ConfigError} (incapable : roleFault? family p role = some e) :
      IsPinLine family role activeLow p (line p.name (Diagnostic.expression e.message))

theorem isPinLine_pinLine {p : Pin} (hstop : stopFault? family p role = none) :
    IsPinLine family role activeLow p (pinLine family role activeLow p) := by
  rw [pinLine, value, initialiser_eq hstop]
  cases hrole : roleFault? family p role with
  | some e => exact .failing hrole
  | none =>
    obtain ⟨rest, hwords⟩ := @exists_opening family p role activeLow hstop hrole
    have hvalue := @initialiser_eq family p role activeLow hstop
    rw [hrole] at hvalue
    exact .initialised hrole hvalue hwords

theorem bind_eq_pinLine {p : Pin} (hstop : stopFault? family p role = none) :
    (ownName p >>= fun name => bind family name p role activeLow .plain) =
      .ok ⟨[pinLine family role activeLow p], [p.name], (roleFault? family p role).toList,
        false⟩ := by
  rw [ownName_bind, bind_eq, hstop, ofFault?_none, part_eq (isWord_name p) hstop]
  rfl

theorem parts_eq {ps : List Pin} (hstop : ∀ p ∈ ps, stopFault? family p role = none) :
    parts family ps role activeLow = ps.map fun p =>
      ⟨[pinLine family role activeLow p], [p.name], (roleFault? family p role).toList, false⟩ :=
  List.map_congr_left fun p hp => part_eq (isWord_name p) (hstop p hp) .plain

theorem withArray_eq {ps : List Pin} (hstop : ∀ p ∈ ps, stopFault? family p role = none)
    (name : String) :
    (withArray name (parts family ps role activeLow)).lines =
        ps.map (pinLine family role activeLow) ++ [arrayLine name (ps.map Pin.name)] ∧
      (withArray name (parts family ps role activeLow)).bindings = ps.map Pin.name ++ [name] := by
  have hlines : (parts family ps role activeLow).flatMap Fragment.lines =
      ps.map (pinLine family role activeLow) := by
    rw [parts_eq hstop, List.flatMap_map, List.map_eq_flatMap]
  have hnames : (parts family ps role activeLow).flatMap Fragment.bindings = ps.map Pin.name := by
    rw [parts_eq hstop, List.flatMap_map, List.map_eq_flatMap]
  rw [withArray, array_eq, Fragment.lines_append, Fragment.bindings_append, Fragment.lines_concat,
    Fragment.bindings_concat, hnames, hlines]
  exact ⟨rfl, rfl⟩

/-- Only pins that are to wake the processor carry errors. -/
theorem flatMap_roleFault? (ps : List Pin) :
    (ps.flatMap fun p => (roleFault? family p (.inputFor interrupt)).toList) =
      if interrupt then ps.filterMap (capabilityFault? family) else [] := by
  cases interrupt with
  | true => exact (List.filterMap_eq_flatMap_toList _ _).symm
  | false => exact List.flatMap_eq_nil_iff.2 fun _ _ => rfl

theorem declared?_line (h : IsWord name) (value : String) :
    declared? (line name value) = some name :=
  declared?_statement h value

theorem declared?_pinLine (p : Pin) :
    declared? (pinLine family role activeLow p) = some p.name := by
  rw [pinLine, declared?_line (isWord_name p)]

theorem items?_arrayLine {items : List String} (h : IsWord name)
    (hitems : ∀ item ∈ items, IsWord item) :
    items? (arrayLine name items).toList = some (items.map String.toList) :=
  items?_statement h hitems

/-! ### Rows and columns -/

/-- The code for rows and columns that is faithful to them. -/
structure IsMatrixCode (family : Family) (rows cols : List Pin) (interrupt activeLow : Bool)
    (f : Fragment) : Prop where
  /-- A line for each row, the array of the rows, a line for each column, and the array of the
  columns, which are as they would be without interrupts. -/
  lines : f.lines =
    (rows.map (pinLine family (.inputFor interrupt) activeLow) ++
        [arrayLine "input_pins" (rows.map Pin.name)]) ++
      (cols.map (pinLine family .output activeLow) ++ [arrayLine "output_pins" (cols.map Pin.name)])
  bindings : f.bindings =
    (rows.map Pin.name ++ ["input_pins"]) ++ (cols.map Pin.name ++ ["output_pins"])
  /-- Each line introduces the name at its place. -/
  declared : f.lines.map declared? = f.bindings.map some
  input_items : items? (arrayLine "input_pins" (rows.map Pin.name)).toList =
    some (rows.map fun p => p.name.toList)
  output_items : items? (arrayLine "output_pins" (cols.map Pin.name)).toList =
    some (cols.map fun p => p.name.toList)
  /-- The line of a row is that of a single input, and the line of a column that of an output. -/
  rows_input : ∀ p ∈ rows,
    IsPinLine family (.inputFor interrupt) activeLow p
        (pinLine family (.inputFor interrupt) activeLow p) ∧
      inputPin family p (.inputFor interrupt) activeLow none =
        .ok ⟨[pinLine family (.inputFor interrupt) activeLow p], [p.name],
          (roleFault? family p (.inputFor interrupt)).toList, false⟩
  cols_output : ∀ p ∈ cols,
    IsPinLine family .output activeLow p (pinLine family .output activeLow p) ∧
      outputPin family p activeLow none =
        .ok ⟨[pinLine family .output activeLow p], [p.name], [], false⟩
  diagnostics : f.diagnostics = if interrupt then rows.filterMap (capabilityFault? family) else []

theorem inputPin_eq {p : Pin} (hstop : stopFault? family p (.inputFor interrupt) = none) :
    inputPin family p (.inputFor interrupt) activeLow none =
      .ok ⟨[pinLine family (.inputFor interrupt) activeLow p], [p.name],
        (roleFault? family p (.inputFor interrupt)).toList, false⟩ := by
  have hrole : Role.inputFor interrupt ≠ .output := by
    cases interrupt <;> decide
  rw [inputPin, if_neg hrole, nameOr, bind_eq_pinLine hstop]

theorem map_declared?_lines (hname : IsWord name) (ps : List Pin) (items : List String) :
    (ps.map (pinLine family role activeLow) ++ [arrayLine name items]).map declared? =
      (ps.map Pin.name ++ [name]).map some := by
  have hpins : (ps.map (pinLine family role activeLow)).map declared? =
      (ps.map Pin.name).map some := by
    simp only [List.map_map, Function.comp_def, declared?_pinLine]
  rw [List.map_append, List.map_append, hpins, List.map_singleton, List.map_singleton,
    arrayLine, declared?_line hname]

theorem items?_pins (hname : IsWord name) (ps : List Pin) :
    items? (arrayLine name (ps.map Pin.name)).toList = some (ps.map fun p => p.name.toList) := by
  have hwords : ∀ item ∈ ps.map Pin.name, IsWord item := by
    intro item hitem
    obtain ⟨p, -, rfl⟩ := List.mem_map.1 hitem
    exact isWord_name p
  rw [items?_arrayLine hname hwords, List.map_map]
  rfl

theorem isMatrixCode_statements {rows cols : List Pin}
    (hrows : ∀ p ∈ rows, stopFault? family p (.inputFor interrupt) = none)
    (hcols : ∀ p ∈ cols, stopFault? family p .output = none) :
    IsMatrixCode family rows cols interrupt activeLow
      (statements family interrupt activeLow (.matrix rows cols)) := by
  have hinput := isWord_array "input_pins" (by decide)
  have houtput := isWord_array "output_pins" (by decide)
  obtain ⟨hlines, hbindings⟩ := @withArray_eq family _ activeLow rows hrows "input_pins"
  obtain ⟨hlines', hbindings'⟩ := @withArray_eq family _ activeLow cols hcols "output_pins"
  constructor
  case lines => rw [statements, Fragment.lines_append, hlines, hlines']
  case bindings => rw [statements, Fragment.bindings_append, hbindings, hbindings']
  case declared =>
    rw [statements, Fragment.lines_append, Fragment.bindings_append, hlines, hlines', hbindings,
      hbindings', List.map_append, map_declared?_lines hinput, map_declared?_lines houtput,
      ← List.map_append]
  case input_items => exact items?_pins hinput rows
  case output_items => exact items?_pins houtput cols
  case rows_input =>
    intro p hp
    exact ⟨isPinLine_pinLine (hrows p hp), inputPin_eq (hrows p hp)⟩
  case cols_output =>
    intro p hp
    exact ⟨isPinLine_pinLine (hcols p hp), bind_eq_pinLine (hcols p hp)⟩
  case diagnostics =>
    rw [diagnostics_statements, ← flatMap_roleFault?]
    rfl

/-- **The code for rows and columns is faithful to them.**  Whatever the pins, as long as their
numbers can be written, the emitter stops with the first of their faults, and without faults its
code is one line for each pin and the two arrays, with the names of the pins in their order; rows
are initialised as inputs, columns as outputs, and exactly the rows that cannot wake the processor
and should carry an error. -/
theorem matrix_faithful (family : Family) (rows cols : List Pin) (interrupt activeLow : Bool)
    (hrows : ∀ p ∈ rows, isShort family (.inputFor interrupt) p = true)
    (hcols : ∀ p ∈ cols, isShort family .output p = true) :
    (∀ e, (matrixFaults interrupt rows cols).head? = some e →
        matrix family rows cols interrupt activeLow = .error (.config e)) ∧
      (matrixFaults interrupt rows cols = [] → ∃ f,
        matrix family rows cols interrupt activeLow = .ok f ∧
          IsMatrixCode family rows cols interrupt activeLow f) := by
  have hfirst := head?_matrixFaults hrows hcols
  refine ⟨fun e he => ?_, fun hnone => ?_⟩
  · rw [matrix_eq, ← hfirst, he, Option.map_some, ofFault?_some]
  · rw [hnone, List.head?_nil, Option.map_none] at hfirst
    have hstop := hfirst.symm
    rw [layoutFault?, Option.or_eq_none_iff, Option.or_eq_none_iff, Option.or_eq_none_iff,
      List.findSome?_eq_none_iff, List.findSome?_eq_none_iff] at hstop
    obtain ⟨-, -, hrows, hcols⟩ := hstop
    refine ⟨_, ?_, isMatrixCode_statements hrows hcols⟩
    rw [matrix_eq, ← hfirst, ofFault?_none]

/-- Rows of which only the first can wake the processor; the number of the last is one that no bank
has. -/
def mixedRows : List Pin := [.mcu "PB12" 12, .mcu "PB16" 16, .expander ⟨0x20, .a, 9⟩]

/-- Two of the rows carry errors.  An absent pin in their place stops the emitter. -/
theorem matrix_faithful_mixed :
    (∃ f, matrix .stm32 mixedRows [.mcu "PA8" 8] true false = .ok f ∧
        IsMatrixCode .stm32 mixedRows [.mcu "PA8" 8] true false f ∧ f.diagnostics.length = 2) ∧
      matrix .stm32 [.absent] [.mcu "PA8" 8] true false = .error (.config .absentOutsideGrid) := by
  have hmixed : ∀ p ∈ mixedRows, isShort .stm32 (.inputFor true) p = true := by
    intro p hp
    simp only [mixedRows, List.mem_cons, List.not_mem_nil, or_false] at hp
    rcases hp with rfl | rfl | rfl <;> exact Digits.isWritable_of_lt (by decide)
  have habsent : ∀ p ∈ [Pin.absent], isShort .stm32 (.inputFor true) p = true := by simp [isShort]
  have hcols : ∀ p ∈ [Pin.mcu "PA8" 8], isShort .stm32 .output p = true := by simp [isShort]
  have hnone : matrixFaults true mixedRows [.mcu "PA8" 8] = [] := rfl
  obtain ⟨f, hf, hcode⟩ :=
    (matrix_faithful .stm32 mixedRows [.mcu "PA8" 8] true false hmixed hcols).2 hnone
  refine ⟨⟨f, hf, hcode, ?_⟩,
    (matrix_faithful .stm32 [.absent] [.mcu "PA8" 8] true false habsent hcols).1 _ rfl⟩
  rw [hcode.diagnostics]
  rfl

/-- The pin at the first place whose pin, absent or not, stands at an earlier place too. -/
def firstMetAgain? (ps : List Pin) : Option Pin :=
  (ps.zipIdx.find? fun q => q.1 ∈ ps.take q.2).map Prod.fst

/-- Absent pins do not count as repeated, even where they are not allowed: the emitter passes over
two of them and reports a pin behind them.  And a pin that cannot be written is not reported. -/
theorem first_met_again_not_reported :
    (¬∀ (family : Family) (rows cols : List Pin) (interrupt activeLow : Bool) (p : Pin),
      firstMetAgain? (rows ++ cols) = some p →
        ∃ e, matrix family rows cols interrupt activeLow = .error (.config e) ∧
          e.raw = .text p.text) ∧
      matrix .stm32 [endlessPin] [endlessPin] false false = .error .longInteger := by
  constructor
  · intro h
    obtain ⟨e, he, hraw⟩ := h .stm32 [.absent, .absent, .mcu "PA0" 0] [.mcu "PA0" 0] false false
      .absent (by decide)
    have hrepeat : matrix .stm32 [.absent, .absent, .mcu "PA0" 0] [.mcu "PA0" 0] false false =
        .error (.config (.repeated (.mcu "PA0" 0))) := rfl
    rw [hrepeat, Except.error.injEq, Failure.config.injEq] at he
    subst he
    have hdiffer : ¬ "PA0" = "_" := by decide
    exact hdiffer (Value.text.inj hraw)
  · rw [matrix, List.singleton_append, checkUnique_endlessPin]
    rfl

end Emit

end BoardWiring
