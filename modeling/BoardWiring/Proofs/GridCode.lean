import BoardWiring.Proofs.DistinctBindings
import BoardWiring.Proofs.MatrixCode
import Mathlib.Data.List.Nodup

/-!
# The code for grids

The emitter for grids is given pins that nobody has checked, and places without pins.  Its code
keeps the shape of the grid: row by row a line for each place and an array, and last the array of
the rows.

* `Emit.gridFaults` are the faults of a grid, in the order in which they count;
* `Emit.placeLine` is the line for a place, and `Emit.IsPlaceLine` compares it with the line that
  the emitter for single inputs gives for the same pin;
* `Emit.nodup_gridNames` says that no two names of a grid are the same, whatever the pins;
* `Emit.grid_faithful` says that the emitter reports the first fault, and that its code is
  otherwise faithful to the grid (`Emit.IsGridCode`).
-/

namespace BoardWiring

open Code Name Outcome

namespace Emit

variable {family : Family} {interrupt activeLow : Bool}

/-! ### Faults -/

/-- Rows that are not as long as the first one. -/
def raggedFaults (rows : List (List Pin)) : List ConfigError :=
  (rows.zipIdx.filter fun r => r.1.length != (rows.headD []).length).map fun r =>
    .raggedRow r.2 r.1.length (rows.headD []).length

/-- What is wrong with a grid, in the order in which it counts. -/
def gridFaults (interrupt : Bool) (rows : List (List Pin)) : List ConfigError :=
  raggedFaults rows ++ (repeatFaults rows.flatten ++
    indexFaults (calledInputs interrupt rows.flatten))

theorem head?_raggedFaults (rows : List (List Pin)) :
    (raggedFaults rows).head? = raggedFault? (.grid rows) := by
  rw [raggedFaults, List.head?_map, List.head?_filter, raggedFault?, firstRagged?, Option.map_map]
  rfl

theorem findSome?_placeFault? {ps : List Pin}
    (h : ∀ p ∈ ps, isShort family (.inputFor interrupt) p = true) :
    ps.findSome? (placeFault? family interrupt) =
      (ps.findSome? (placeError? interrupt)).map .config := by
  induction ps with
  | nil => rfl
  | cons p ps ih =>
    obtain ⟨hp, hps⟩ := List.forall_mem_cons.1 h
    rw [List.findSome?_cons, List.findSome?_cons, placeFault?, placeError?, stopFault?_of_short hp,
      ih hps]
    split_ifs
    · rfl
    · cases pinFault? p (.inputFor interrupt) <;> rfl

/-- **The first of the faults is the one with which the emitter stops.** -/
theorem head?_gridFaults {rows : List (List Pin)}
    (h : ∀ p ∈ rows.flatten, isShort family (.inputFor interrupt) p = true) :
    (gridFaults interrupt rows).head?.map .config =
      layoutFault? family interrupt (.grid rows) := by
  have hwritable : ∀ p ∈ rows.flatten, p.isWritable = true := fun p hp =>
    isWritable_of_isShort (h p hp)
  rw [gridFaults, List.head?_append, List.head?_append, Option.map_or, Option.map_or,
    head?_raggedFaults, head?_repeatFaults hwritable, indexFaults_calledInputs,
    List.head?_filterMap, layoutFault?, findSome?_placeFault? h]

/-! ### Places -/

/-- The line for a place: of one without a pin it says that there is none. -/
def placeLine (family : Family) (interrupt activeLow : Bool) (p : Pin) (row col : Nat) : String :=
  line (cellName p row col)
    (if p = .absent then "None" else value family p (.inputFor interrupt) activeLow .some)

theorem cellPart_eq {p : Pin} (hstop : placeFault? family interrupt p = none) (row col : Nat) :
    cellPart family p row col interrupt activeLow =
      ⟨[placeLine family interrupt activeLow p row col], [cellName p row col],
        (roleFault? family p (.inputFor interrupt)).toList, false⟩ := by
  rw [cellPart, placeLine]
  by_cases habsent : p = .absent
  · subst habsent
    cases interrupt <;> rfl
  · rw [placeFault?, if_neg habsent] at hstop
    rw [if_neg habsent, if_neg habsent, part_eq (isWord_cellName p row col) hstop]

/-- The line for a place says what the emitter for single inputs says of the same pin. -/
structure IsPlaceLine (family : Family) (interrupt activeLow : Bool) (p : Pin) (row col : Nat) :
    Prop where
  /-- There is no pin exactly where the line says so. -/
  absent_iff : placeLine family interrupt activeLow p row col = line (cellName p row col) "None" ↔
    p = .absent
  /-- There is a pin with an expression exactly where a single input has that expression. -/
  present_iff : ∀ e, placeLine family interrupt activeLow p row col =
      line (cellName p row col) ("Some(" ++ e ++ ")") ↔
    inputPin family p (.inputFor interrupt) activeLow none = .ok (statement p.name e)
  /-- The line fails the build with an error where a single input does, and only there. -/
  failing : ∀ e, inputPin family p (.inputFor interrupt) activeLow none =
      .ok (Diagnostic.fragment e p.name) →
    placeLine family interrupt activeLow p row col =
      line (cellName p row col) (Diagnostic.expression e.message)
  failing_iff : (failing? (placeLine family interrupt activeLow p row col)).isSome = true ↔
    ∃ e, inputPin family p (.inputFor interrupt) activeLow none =
      .ok (Diagnostic.fragment e p.name)

theorem line_right_inj {name v w : String} : line name v = line name w ↔ v = w := by
  rw [line, line, String.append_left_inj, String.append_right_inj]

theorem head?_expression (message : String) :
    (Diagnostic.expression message).toList.head? = some ':' := by
  unfold Diagnostic.expression
  rw [String.append_assoc]
  exact Text.head?_append (by decide)

theorem head?_someOf (e : String) : ("Some(" ++ e ++ ")").toList.head? = some 'S' := by
  rw [String.append_assoc]
  exact Text.head?_append (by decide)

/-- What a place is: without a pin, with one that fails the build, or with one that does not. -/
inductive Place (family : Family) (interrupt activeLow : Bool) (p : Pin) (row col : Nat) : Prop
  | absent (missing : p = .absent)
      (text : placeLine family interrupt activeLow p row col = line (cellName p row col) "None")
      (stopped : inputPin family p (.inputFor interrupt) activeLow none =
        .error (.config .absentInitialised))
  | failing {e : ConfigError} (there : p ≠ .absent)
      (text : placeLine family interrupt activeLow p row col =
        line (cellName p row col) (Diagnostic.expression e.message))
      (single : inputPin family p (.inputFor interrupt) activeLow none =
        .ok (Diagnostic.fragment e p.name))
  | bound {e : String} (there : p ≠ .absent)
      (text : placeLine family interrupt activeLow p row col =
        line (cellName p row col) ("Some(" ++ e ++ ")"))
      (single : inputPin family p (.inputFor interrupt) activeLow none = .ok (statement p.name e))

theorem place {p : Pin} (hstop : placeFault? family interrupt p = none) (row col : Nat) :
    Place family interrupt activeLow p row col := by
  by_cases habsent : p = .absent
  · subst habsent
    refine .absent rfl rfl ?_
    cases interrupt <;> rfl
  · rw [placeFault?, if_neg habsent] at hstop
    have hne : p.name ≠ "" := fun h => (isWord_name p).ne_nil (by rw [h]; rfl)
    have hinput := @inputPin_eq family activeLow interrupt p hstop
    have hline : placeLine family interrupt activeLow p row col =
        line (cellName p row col) (value family p (.inputFor interrupt) activeLow .some) := by
      rw [placeLine, if_neg habsent]
    rw [pinLine, value, initialiser_eq hstop] at hinput
    rw [value, initialiser_eq hstop] at hline
    cases hrole : roleFault? family p (.inputFor interrupt) with
    | some e =>
      rw [hrole] at hinput hline
      exact .failing habsent hline (hinput.trans (congrArg Except.ok (if_neg hne).symm))
    | none =>
      rw [hrole] at hinput hline
      exact .bound habsent hline hinput

theorem diagnostics_fragment (e : ConfigError) (name : String) :
    (Diagnostic.fragment e name).diagnostics = [e] := by
  unfold Diagnostic.fragment
  split_ifs <;> rfl

theorem fragment_ne_statement (e : ConfigError) (name name' value : String) :
    Diagnostic.fragment e name ≠ statement name' value := by
  intro h
  have hdiagnostics := congrArg Fragment.diagnostics h
  rw [diagnostics_fragment] at hdiagnostics
  cases hdiagnostics

theorem fragment_inj {e e' : ConfigError} {name : String}
    (h : Diagnostic.fragment e name = Diagnostic.fragment e' name) : e = e' := by
  have hdiagnostics := congrArg Fragment.diagnostics h
  rw [diagnostics_fragment, diagnostics_fragment] at hdiagnostics
  exact (List.cons.inj hdiagnostics).1

theorem statement_right_inj {name v w : String} : statement name v = statement name w ↔ v = w := by
  constructor
  · intro h
    have hlines : [line name v] = [line name w] := congrArg Fragment.lines h
    exact line_right_inj.1 (List.cons.inj hlines).1
  · rintro rfl
    rfl

theorem failing?_line_some (p : Pin) (row col : Nat) (e : String) :
    failing? (line (cellName p row col) ("Some(" ++ e ++ ")")) = none := by
  rw [String.append_assoc]
  exact failing?_statement (isWord_cellName p row col) (by decide) _

theorem failing?_line_none (p : Pin) (row col : Nat) :
    failing? (line (cellName p row col) "None") = none :=
  failing?_statement (s := "None") (isWord_cellName p row col) (by decide) ""

/-- **The line for a place says what a single input says.** -/
theorem Place.isPlaceLine {p : Pin} {row col : Nat}
    (h : Place family interrupt activeLow p row col) :
    IsPlaceLine family interrupt activeLow p row col := by
  have hsome : ∀ e, "None" ≠ "Some(" ++ e ++ ")" := by
    intro e heq
    have hhead := congrArg (fun s => s.toList.head?) heq
    rw [head?_someOf] at hhead
    cases hhead
  have hfail : ∀ m e, Diagnostic.expression m ≠ "Some(" ++ e ++ ")" := by
    intro m e heq
    have hhead := congrArg (fun s => s.toList.head?) heq
    rw [head?_someOf, head?_expression] at hhead
    cases hhead
  have hnone : ∀ m, Diagnostic.expression m ≠ "None" := by
    intro m heq
    have hhead := congrArg (fun s => s.toList.head?) heq
    rw [head?_expression] at hhead
    cases hhead
  cases h with
  | absent missing text stopped =>
    refine ⟨⟨fun _ => missing, fun _ => text⟩, fun e => ?_, fun e he => ?_, ?_⟩
    · simp only [text, stopped, line_right_inj, hsome, reduceCtorEq]
    · rw [stopped] at he
      cases he
    · simp only [text, stopped, failing?_line_none, Option.isSome_none, Bool.false_eq_true,
        reduceCtorEq, exists_false]
  | @failing d there text single =>
    refine ⟨?_, fun e => ?_, fun e he => ?_, ?_⟩
    · simp only [text, line_right_inj, hnone, there]
    · simp only [text, single, line_right_inj, hfail, Except.ok.injEq, fragment_ne_statement]
    · rw [single, Except.ok.injEq] at he
      rw [text, fragment_inj he]
    · have hread : failing? (line (cellName p row col) (Diagnostic.expression d.message)) = _ :=
        failing?_binding (isWord_cellName p row col) d.message
      rw [text, hread, single]
      exact ⟨fun _ => ⟨d, rfl⟩, fun _ => rfl⟩
  | @bound v there text single =>
    refine ⟨?_, fun e => ?_, fun e he => ?_, ?_⟩
    · simp only [text, line_right_inj, (hsome _).symm, there]
    · rw [text, single, line_right_inj, String.append_left_inj, String.append_right_inj,
        Except.ok.injEq, statement_right_inj]
    · rw [single, Except.ok.injEq] at he
      exact absurd he.symm (fragment_ne_statement e _ _ _)
    · rw [text, failing?_line_some, single]
      constructor
      · intro h
        cases h
      · rintro ⟨e, he⟩
        exact absurd (Except.ok.inj he).symm (fragment_ne_statement e _ _ _)

/-! ### Names -/

/-- The names for the places of a row. -/
def placeNames (r : List Pin × Nat) : List String :=
  r.1.zipIdx.map fun p => cellName p.1 r.2 p.2

/-- The names that the code for a grid introduces. -/
def gridNames (rows : List (List Pin)) : List String :=
  (rows.zipIdx.flatMap fun r => placeNames r ++ [rowName r.2]) ++ ["direct_pins"]

theorem decimal_ne {s : String} {c : Char} (hmem : c ∈ s.toList) (hc : c.isDigit = false)
    (n : Nat) : Digits.decimal n ≠ s := by
  rintro rfl
  rw [Digits.decimal, String.toList_ofList] at hmem
  have hdigit : c.isDigit = true :=
    Digits.forall_mem_write (P := fun c => c.isDigit = true) (by decide) (by decide) n c hmem
  rw [hc] at hdigit
  cases hdigit

/-- What ends in two numbers is no name of an array. -/
theorem cellName_ne_rowName (p : Pin) (row col n : Nat) : cellName p row col ≠ rowName n := by
  intro h
  have hrow : p.name ++ "_" ++ Digits.decimal row ++ "_" ++ Digits.decimal col =
      "direct_pins" ++ "_" ++ "row" ++ "_" ++ Digits.decimal n := h
  have hfront := (behind_line_inj hrow).1
  exact decimal_ne (c := 'w') (by decide) (by decide) row
    (line_inj (line_not_mem_decimal row) (by decide) hfront).2

theorem cellName_ne_array (p : Pin) (row col : Nat) : cellName p row col ≠ "direct_pins" := by
  intro h
  have hname : p.name ++ "_" ++ Digits.decimal row ++ "_" ++ Digits.decimal col =
      "direct" ++ "_" ++ "pins" := h
  exact decimal_ne (c := 's') (by decide) (by decide) col
    (line_inj (line_not_mem_decimal col) (by decide) hname).2

/-- **No two names of a grid are the same**, whatever the pins are called. -/
theorem nodup_gridNames (rows : List (List Pin)) : (gridNames rows).Nodup := by
  have hplaces : ∀ r : List Pin × Nat, (placeNames r).Nodup := by
    intro r
    rw [placeNames, List.Nodup, List.pairwise_map]
    exact (zipIdx_pairwise r.1).imp fun hne heq => hne (cellName_inj heq).2
  have hrow : ∀ r : List Pin × Nat, (placeNames r ++ [rowName r.2]).Nodup := by
    intro r
    rw [List.nodup_append]
    refine ⟨hplaces r, List.nodup_singleton _, fun s hs t ht => ?_⟩
    obtain ⟨p, -, rfl⟩ := List.mem_map.1 hs
    rw [List.mem_singleton.1 ht]
    exact cellName_ne_rowName _ _ _ _
  have hnames : ∀ (r : List Pin × Nat), ∀ s ∈ placeNames r ++ [rowName r.2],
      (∃ p col, s = cellName p r.2 col) ∨ s = rowName r.2 := by
    intro r s hs
    rcases List.mem_append.1 hs with hs | hs
    · obtain ⟨p, -, rfl⟩ := List.mem_map.1 hs
      exact Or.inl ⟨_, _, rfl⟩
    · exact Or.inr (List.mem_singleton.1 hs)
  rw [gridNames, List.nodup_append, List.nodup_flatMap]
  refine ⟨⟨fun r _ => hrow r, ?_⟩, List.nodup_singleton _, ?_⟩
  · -- A name tells its row, so rows with different numbers have no name in common.
    refine (zipIdx_pairwise rows).imp fun {r q} hne s hs hs' => hne ?_
    rcases hnames r s hs with ⟨p, col, rfl⟩ | rfl
    · rcases hnames q _ hs' with ⟨p', col', heq⟩ | heq
      · exact (cellName_inj heq).1
      · exact absurd heq (cellName_ne_rowName _ _ _ _)
    · rcases hnames q _ hs' with ⟨p', col', heq⟩ | heq
      · exact absurd heq.symm (cellName_ne_rowName _ _ _ _)
      · exact rowName_injective heq
  · intro s hs t ht
    obtain ⟨r, -, hs⟩ := List.mem_flatMap.1 hs
    rw [List.mem_singleton.1 ht]
    rcases hnames r s hs with ⟨p, col, rfl⟩ | rfl
    · exact cellName_ne_array p r.2 col
    · exact (ne_rowName (by decide) r.2).symm

/-! ### Grids -/

/-- The lines for a row: one for each place, and the array of their names. -/
def rowCode (family : Family) (interrupt activeLow : Bool) (r : List Pin × Nat) : List String :=
  (r.1.zipIdx.map fun p => placeLine family interrupt activeLow p.1 r.2 p.2) ++
    [arrayLine (rowName r.2) (placeNames r)]

/-- The code for a grid that is faithful to it. -/
structure IsGridCode (family : Family) (rows : List (List Pin)) (interrupt activeLow : Bool)
    (f : Fragment) : Prop where
  /-- The lines of the rows in order, and last the array of the rows. -/
  lines : f.lines = (rows.zipIdx.flatMap (rowCode family interrupt activeLow)) ++
    [arrayLine "direct_pins" (rows.zipIdx.map fun r => rowName r.2)]
  bindings : f.bindings = gridNames rows
  distinct : f.bindings.Nodup
  /-- Each line introduces the name at its place. -/
  declared : f.lines.map declared? = f.bindings.map some
  /-- The array of a row lists the names of its places, and the last array those of the rows. -/
  row_items : ∀ r ∈ rows.zipIdx, items? (arrayLine (rowName r.2) (placeNames r)).toList =
    some (r.1.zipIdx.map fun p => (cellName p.1 r.2 p.2).toList)
  items : items? (arrayLine "direct_pins" (rows.zipIdx.map fun r => rowName r.2)).toList =
    some (rows.zipIdx.map fun r => (rowName r.2).toList)
  /-- The line for a place says what a single input says. -/
  places : ∀ r ∈ rows.zipIdx, ∀ p ∈ r.1.zipIdx,
    IsPlaceLine family interrupt activeLow p.1 r.2 p.2
  diagnostics : f.diagnostics =
    if interrupt then rows.flatten.filterMap (capabilityFault? family) else []

/-- The statements for a row are its lines, and introduce the names of its places and its own. -/
theorem rowPart_eq {ps : List Pin} (hstop : ∀ p ∈ ps, placeFault? family interrupt p = none)
    (row : Nat) :
    (rowPart family ps row interrupt activeLow).lines =
        rowCode family interrupt activeLow (ps, row) ∧
      (rowPart family ps row interrupt activeLow).bindings =
        placeNames (ps, row) ++ [rowName row] := by
  have hcells : (ps.zipIdx.map fun p => cellPart family p.1 row p.2 interrupt activeLow) =
      ps.zipIdx.map fun p => ⟨[placeLine family interrupt activeLow p.1 row p.2],
        [cellName p.1 row p.2], (roleFault? family p.1 (.inputFor interrupt)).toList, false⟩ :=
    List.map_congr_left fun p hp => cellPart_eq (hstop p.1 (List.fst_mem_of_mem_zipIdx hp)) row p.2
  rw [rowPart, hcells, array_eq, Fragment.lines_append, Fragment.bindings_append,
    Fragment.lines_concat, Fragment.bindings_concat, List.flatMap_map, List.flatMap_map, rowCode,
    placeNames, List.map_eq_flatMap, List.map_eq_flatMap]
  exact ⟨rfl, rfl⟩

theorem declared?_placeLine (p : Pin) (row col : Nat) :
    declared? (placeLine family interrupt activeLow p row col) = some (cellName p row col) := by
  rw [placeLine, declared?_line (isWord_cellName p row col)]

theorem map_declared?_rowCode (r : List Pin × Nat) :
    (rowCode family interrupt activeLow r).map declared? =
      (placeNames r ++ [rowName r.2]).map some := by
  rw [rowCode, placeNames, List.map_append, List.map_append, List.map_singleton,
    List.map_singleton, arrayLine, declared?_line (isWord_rowName r.2)]
  simp only [List.map_map, Function.comp_def, declared?_placeLine]

theorem isGridCode_statements {rows : List (List Pin)}
    (hstop : ∀ p ∈ rows.flatten, placeFault? family interrupt p = none) :
    IsGridCode family rows interrupt activeLow
      (statements family interrupt activeLow (.grid rows)) := by
  have harray := isWord_array "direct_pins" (by decide)
  have hrow : ∀ r ∈ rows.zipIdx, ∀ p ∈ r.1, placeFault? family interrupt p = none :=
    fun r hr p hp => hstop p (List.mem_flatten_of_mem (List.fst_mem_of_mem_zipIdx hr) hp)
  have hlines : (statements family interrupt activeLow (.grid rows)).lines =
      (rows.zipIdx.flatMap (rowCode family interrupt activeLow)) ++
        [arrayLine "direct_pins" (rows.zipIdx.map fun r => rowName r.2)] := by
    rw [statements, array_eq, Fragment.lines_append, Fragment.lines_concat, List.flatMap_map]
    exact congrArg (· ++ _) (List.flatMap_congr fun r hr => (rowPart_eq (hrow r hr) r.2).1)
  have hbindings : (statements family interrupt activeLow (.grid rows)).bindings =
      gridNames rows := by
    rw [statements, array_eq, Fragment.bindings_append, Fragment.bindings_concat, List.flatMap_map]
    exact congrArg (· ++ _) (List.flatMap_congr fun r hr => (rowPart_eq (hrow r hr) r.2).2)
  constructor
  case lines => exact hlines
  case bindings => exact hbindings
  case distinct =>
    rw [hbindings]
    exact nodup_gridNames rows
  case declared =>
    rw [hlines, hbindings, gridNames, List.map_append, List.map_append, List.map_flatMap,
      List.map_flatMap, List.map_singleton, List.map_singleton, arrayLine, declared?_line harray]
    simp only [map_declared?_rowCode]
  case row_items =>
    intro r _
    have hwords : ∀ item ∈ placeNames r, IsWord item := by
      intro item hitem
      obtain ⟨p, -, rfl⟩ := List.mem_map.1 hitem
      exact isWord_cellName _ _ _
    rw [items?_arrayLine (isWord_rowName r.2) hwords, placeNames, List.map_map]
    rfl
  case items =>
    have hwords : ∀ item ∈ rows.zipIdx.map fun r => rowName r.2, IsWord item := by
      intro item hitem
      obtain ⟨r, -, rfl⟩ := List.mem_map.1 hitem
      exact isWord_rowName r.2
    rw [items?_arrayLine harray hwords, List.map_map]
    rfl
  case places =>
    intro r hr p hp
    exact (place (hrow r hr p.1 (List.fst_mem_of_mem_zipIdx hp)) r.2 p.2).isPlaceLine
  case diagnostics =>
    rw [diagnostics_statements, ← flatMap_roleFault?]
    rfl

/-- **The code for a grid is faithful to it.**  Whatever the pins, as long as their numbers can be
written, the emitter stops with the first of the faults of the grid.  Without faults its code keeps
the shape of the grid: row by row one line for each place and an array of their names, and last the
array of the rows.  The line for a place without a pin says so, that for a pin says what the emitter
for single inputs says of it, and no name is introduced twice. -/
theorem grid_faithful (family : Family) (rows : List (List Pin)) (interrupt activeLow : Bool)
    (h : ∀ p ∈ rows.flatten, isShort family (.inputFor interrupt) p = true) :
    (∀ e, (gridFaults interrupt rows).head? = some e →
        grid family rows interrupt activeLow = .error (.config e)) ∧
      (gridFaults interrupt rows = [] → ∃ f,
        grid family rows interrupt activeLow = .ok f ∧
          IsGridCode family rows interrupt activeLow f) := by
  have hfirst := head?_gridFaults h
  refine ⟨fun e he => ?_, fun hnone => ?_⟩
  · rw [grid_eq, ← hfirst, he, Option.map_some, ofFault?_some]
  · rw [hnone, List.head?_nil, Option.map_none] at hfirst
    have hstop := hfirst.symm
    rw [layoutFault?, Option.or_eq_none_iff, Option.or_eq_none_iff,
      List.findSome?_eq_none_iff] at hstop
    obtain ⟨-, -, hplaces⟩ := hstop
    refine ⟨_, ?_, isGridCode_statements hplaces⟩
    rw [grid_eq, ← hfirst, ofFault?_none]

/-- A grid with a place without a pin, with a pin that cannot wake the processor, and with a pin
that is called like the array. -/
def sparseGrid : List (List Pin) :=
  [[.mcu "PA0" 0, .absent], [.mcu "PB16" 16, .mcu "direct pins" 3]]

/-- Its code is faithful to it, and carries the error of one pin.  With a place less in the second
row, the emitter stops. -/
theorem grid_faithful_sparse :
    (∃ f, grid .stm32 sparseGrid true true = .ok f ∧ IsGridCode .stm32 sparseGrid true true f ∧
        f.diagnostics = [.noInterruptLine "PB16" 16]) ∧
      grid .stm32 [[.mcu "PA0" 0, .absent], [.mcu "PB16" 16]] true true =
        .error (.config (.raggedRow 1 1 2)) := by
  have hshort : ∀ p ∈ [.mcu "PA0" 0, .absent, .mcu "PB16" 16, .mcu "direct pins" 3],
      isShort .stm32 (.inputFor true) p = true := by
    intro p hp
    simp only [List.mem_cons, List.not_mem_nil, or_false] at hp
    rcases hp with rfl | rfl | rfl | rfl
    · exact Digits.isWritable_of_lt (by decide)
    · rfl
    · exact Digits.isWritable_of_lt (by decide)
    · exact Digits.isWritable_of_lt (by decide)
  have hragged : ∀ p ∈ [[Pin.mcu "PA0" 0, .absent], [.mcu "PB16" 16]].flatten,
      isShort .stm32 (.inputFor true) p = true := by
    refine fun p hp => hshort p (List.mem_append_left [_] hp)
  obtain ⟨f, hf, hcode⟩ := (grid_faithful .stm32 sparseGrid true true hshort).2 rfl
  refine ⟨⟨f, hf, hcode, ?_⟩, (grid_faithful .stm32 _ true true hragged).1 _ rfl⟩
  rw [hcode.diagnostics]
  rfl

/-- The first pin of a list among those that stand in it more than once. -/
def firstReused? (ps : List Pin) : Option Pin :=
  (ps.filter (· ≠ .absent)).find? fun p => decide (1 < ps.count p)

/-- A grid with two pins on four keys. -/
def crossedGrid : List (List Pin) :=
  [[.mcu "PA0" 0, .mcu "PA1" 1], [.mcu "PA1" 1, .mcu "PA0" 0]]

/-- The emitter does not report the first of the pins that are used more than once, but the one
whose second place comes first.  And a pin that cannot be written is not reported. -/
theorem first_reused_not_reported :
    (¬∀ (family : Family) (rows : List (List Pin)) (interrupt activeLow : Bool) (p : Pin),
      firstReused? rows.flatten = some p →
        ∃ e, grid family rows interrupt activeLow = .error (.config e) ∧
          e.raw = .text p.text) ∧
      grid .stm32 [[endlessPin], [endlessPin]] false false = .error .longInteger := by
  constructor
  · intro h
    obtain ⟨e, he, hraw⟩ := h .stm32 crossedGrid false false (.mcu "PA0" 0) (by decide)
    have hrepeat : grid .stm32 crossedGrid false false =
        .error (.config (.repeated (.mcu "PA1" 1))) := rfl
    rw [hrepeat, Except.error.injEq, Failure.config.injEq] at he
    subst he
    have hdiffer : ¬ "PA1" = "PA0" := by decide
    exact hdiffer (Value.text.inj hraw)
  · have hpins : [[endlessPin], [endlessPin]].flatten = [endlessPin, endlessPin] := rfl
    rw [grid, hpins, checkUnique_endlessPin]
    rfl

end Emit

end BoardWiring
