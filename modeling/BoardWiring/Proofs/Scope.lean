import BoardWiring.Proofs.LineReadings
import BoardWiring.Proofs.Verdict
import Mathlib.Data.List.Basic

/-!
# Scope

Every name that a line of a unit uses is introduced by a line before it.

* `Code.ScopedAfter` says so of lines that have been read;
* `Code.ListedBy` says that the arrays list what the other lines bind, in order;
* `Board.unit_well_scoped` says that both hold of every unit, and how often its bus is made shared
  and moved.
-/

namespace BoardWiring

namespace Code

variable {known known' : List (List Char)} {r : Reading} {rs ss : List Reading}

/-- The names that a line uses: the variables for the bus, and what it lists. -/
def Reading.uses (r : Reading) : List (List Char) := r.bus.map root ++ r.items.getD []

/-- Every name that a line uses is known, or introduced by a line before it. -/
def ScopedAfter (known : List (List Char)) (rs : List Reading) : Prop :=
  ∀ before r after, rs = before ++ r :: after →
    ∀ x ∈ r.uses, x ∈ known ++ before.filterMap Reading.introduced

theorem scopedAfter_nil : ScopedAfter known [] := by
  intro before r after h
  cases before <;> cases h

theorem scopedAfter_cons : ScopedAfter known (r :: rs) ↔
    (∀ x ∈ r.uses, x ∈ known) ∧ ScopedAfter (known ++ r.introduced.toList) rs := by
  have hintroduced : ∀ before : List Reading,
      known ++ (r :: before).filterMap Reading.introduced =
        known ++ r.introduced.toList ++ before.filterMap Reading.introduced := by
    intro before
    rw [List.append_assoc]
    cases hr : r.introduced with
    | none => rw [List.filterMap_cons_none hr]; rfl
    | some name => rw [List.filterMap_cons_some hr]; rfl
  constructor
  · intro h
    refine ⟨fun x hx => ?_, fun before q after hq x hx => ?_⟩
    · simpa using h [] r rs rfl x hx
    · rw [← hintroduced]
      exact h (r :: before) q after (by rw [hq]; rfl) x hx
  · rintro ⟨huses, h⟩ before q after hq x hx
    cases before with
    | nil =>
      cases hq
      exact List.mem_append_left _ (huses x hx)
    | cons p before =>
      obtain ⟨rfl, hrs⟩ := List.cons.inj hq
      rw [hintroduced]
      exact h before q after hrs x hx

theorem ScopedAfter.mono (h : ScopedAfter known rs) (hsub : known ⊆ known') :
    ScopedAfter known' rs := by
  intro before r after hrs x hx
  have hmem := h before r after hrs x hx
  rw [List.mem_append] at hmem ⊢
  exact hmem.imp (fun hx => hsub hx) id

theorem scopedAfter_append : ScopedAfter known (rs ++ ss) ↔
    ScopedAfter known rs ∧ ScopedAfter (known ++ rs.filterMap Reading.introduced) ss := by
  induction rs generalizing known with
  | nil => simp [scopedAfter_nil]
  | cons r rs ih =>
    -- What the first line introduces is known to the rest of the run and to all after it.
    rw [List.cons_append, scopedAfter_cons, scopedAfter_cons, ih, and_assoc, List.append_assoc]
    cases hr : r.introduced with
    | none => rw [List.filterMap_cons_none hr]; rfl
    | some name => rw [List.filterMap_cons_some hr]; rfl

theorem scopedAfter_flatMap {α : Type} {f : α → List Reading} {xs : List α}
    (h : ∀ x ∈ xs, ScopedAfter known (f x)) : ScopedAfter known (xs.flatMap f) := by
  induction xs with
  | nil => exact scopedAfter_nil
  | cons x xs ih =>
    rw [List.forall_mem_cons] at h
    rw [List.flatMap_cons, scopedAfter_append]
    exact ⟨h.1, (ih h.2).mono (List.subset_append_left _ _)⟩

theorem scopedAfter_of_known (h : ∀ r ∈ rs, ∀ x ∈ r.uses, x ∈ known) : ScopedAfter known rs := by
  rintro before r after rfl x hx
  exact List.mem_append_left _ (h r (by simp) x hx)

/-- An array may follow the lines that introduce what it lists. -/
theorem ScopedAfter.array {name : List Char} {items : List (List Char)}
    (h : ScopedAfter known rs) (hitems : items ⊆ rs.filterMap Reading.introduced) :
    ScopedAfter known (rs ++ [⟨some name, [], some items⟩]) := by
  rw [scopedAfter_append, scopedAfter_cons]
  exact ⟨h, fun x hx => List.mem_append_right _ (hitems hx), scopedAfter_nil⟩

/-- The name that a line binds to a single value. -/
def Reading.binding? (r : Reading) : Option (List Char) :=
  match r.items with
  | some _ => none
  | none => r.introduced

/-- The array that a line computes: its name and what it lists. -/
def Reading.array? (r : Reading) : Option (List Char × List (List Char)) :=
  match r.introduced, r.items with
  | some name, some items => some (name, items)
  | _, _ => none

/-- The arrays list the bindings of a layout in order: two arrays for a matrix; for a grid one for
each row, and one of the rows. -/
def ListedBy (arrays : List (List Char × List (List Char))) (bindings : List (List Char)) :
    Layout Pin → Prop
  | .matrix rows cols => ∃ xs ys,
    arrays = [("input_pins".toList, xs), ("output_pins".toList, ys)] ∧ xs ++ ys = bindings ∧
      xs.length = rows.length ∧ ys.length = cols.length
  | .grid rows => ∃ as,
    arrays = as ++ [("direct_pins".toList, as.map Prod.fst)] ∧ as.flatMap Prod.snd = bindings ∧
      (as.map fun a => a.2.length) = rows.map List.length

end Code

/-! ### Lines for the pins -/

namespace Emit

open Code

variable {interrupt : Bool} {known : List (List Char)}

/-- The lines that bind single pins of the layout use the shared bus at most. -/
theorem mem_known_of_bound {ps : List Pin} (h : ps.any Pin.isExpander = true →
    "i2c_bus".toList ∈ known) {p : Pin} (hp : p ∈ ps) {name : String} {role : Role} {wrap : Wrap} :
    ∀ x ∈ (PinLine.bound name p role wrap).reading.uses, x ∈ known := by
  intro x hx
  cases p with
  | absent => cases hx
  | mcu _ _ => cases hx
  | expander e =>
    have hroot : (PinLine.bound name (.expander e) role wrap).reading.uses =
        ["i2c_bus".toList] := by
      change [root "&i2c_bus".toList] ++ [] = _
      decide
    rw [hroot, List.mem_singleton] at hx
    rw [hx]
    exact h (List.any_eq_true.2 ⟨_, hp, rfl⟩)

theorem introduced_reading (ls : List PinLine) :
    (ls.map PinLine.reading).filterMap Reading.introduced = ls.map fun x => x.name.toList := by
  rw [List.filterMap_map]
  exact congrFun (List.filterMap_eq_map (f := fun x : PinLine => x.name.toList)) ls

theorem scopedAfter_array {ls : List PinLine} {name : String} {items : List String}
    (h : ScopedAfter known (ls.map PinLine.reading)) (hitems : items ⊆ ls.map PinLine.name) :
    ScopedAfter known ((ls ++ [PinLine.array name items]).map PinLine.reading) := by
  rw [List.map_append]
  refine h.array fun x hx => ?_
  obtain ⟨item, hitem, rfl⟩ := List.mem_map.1 hx
  obtain ⟨y, hy, rfl⟩ := List.mem_map.1 (hitems hitem)
  rw [introduced_reading]
  exact List.mem_map_of_mem hy

theorem scopedAfter_matrixLines {array : String} {ps : List Pin} {role : Role}
    (h : ps.any Pin.isExpander = true → "i2c_bus".toList ∈ known) :
    ScopedAfter known ((matrixLines array ps role).map PinLine.reading) := by
  refine scopedAfter_array (scopedAfter_of_known fun r hr => ?_) ?_
  · obtain ⟨x, hx, rfl⟩ := List.mem_map.1 hr
    obtain ⟨p, hp, rfl⟩ := List.mem_map.1 hx
    exact mem_known_of_bound h hp
  · rw [List.map_map]
    exact fun _ hx => hx

@[simp] theorem name_cellLine (p : Pin) (row col : Nat) :
    (cellLine interrupt p row col).name = cellName p row col := by
  unfold cellLine
  split_ifs <;> rfl

theorem scopedAfter_rowLines {ps : List Pin} {row : Nat}
    (h : ps.any Pin.isExpander = true → "i2c_bus".toList ∈ known) :
    ScopedAfter known ((rowLines interrupt ps row).map PinLine.reading) := by
  refine scopedAfter_array (scopedAfter_of_known fun r hr => ?_) ?_
  · obtain ⟨x, hx, rfl⟩ := List.mem_map.1 hr
    obtain ⟨q, hq, rfl⟩ := List.mem_map.1 hx
    unfold cellLine
    split_ifs
    · exact fun x hx => by cases hx
    · exact mem_known_of_bound h (List.fst_mem_of_mem_zipIdx hq)
  · intro item hitem
    simpa [List.map_map, Function.comp_def] using hitem

/-- **What the lines for a layout use is introduced before it, if the shared bus is known.** -/
theorem scopedAfter_lines {l : Layout Pin}
    (h : l.toList.any Pin.isExpander = true → "i2c_bus".toList ∈ known) :
    ScopedAfter known ((lines interrupt l).map PinLine.reading) := by
  have hsub : ∀ ps : List Pin, ps ⊆ l.toList → ps.any Pin.isExpander = true →
      "i2c_bus".toList ∈ known := by
    intro ps hps hany
    obtain ⟨p, hp, hexpander⟩ := List.any_eq_true.1 hany
    exact h (List.any_eq_true.2 ⟨p, hps hp, hexpander⟩)
  cases l with
  | matrix rows cols =>
    rw [lines, List.map_append, scopedAfter_append]
    exact ⟨scopedAfter_matrixLines (hsub rows (List.subset_append_left _ _)),
      (scopedAfter_matrixLines (hsub cols (List.subset_append_right _ _))).mono
        (List.subset_append_left _ _)⟩
  | grid rows =>
    refine scopedAfter_array ?_ ?_
    · rw [List.map_flatMap]
      refine scopedAfter_flatMap fun r hr => scopedAfter_rowLines (hsub r.1 ?_)
      exact fun p hp => List.mem_flatten_of_mem (List.fst_mem_of_mem_zipIdx hr) hp
    · -- The last array lists the rows, which the arrays before it introduce.
      intro item hitem
      obtain ⟨r, hr, rfl⟩ := List.mem_map.1 hitem
      rw [List.map_flatMap, List.mem_flatMap]
      exact ⟨r, hr, by simp [rowLines, PinLine.name]⟩

/-! ### Arrays -/

/-- The names that lines bind to single values. -/
def bindings (ls : List PinLine) : List (List Char) :=
  (ls.map PinLine.reading).filterMap Reading.binding?

/-- The arrays that lines compute. -/
def arrays (ls : List PinLine) : List (List Char × List (List Char)) :=
  (ls.map PinLine.reading).filterMap Reading.array?

theorem bindings_append (ls ms : List PinLine) :
    bindings (ls ++ ms) = bindings ls ++ bindings ms := by
  rw [bindings, List.map_append, List.filterMap_append]
  rfl

theorem arrays_append (ls ms : List PinLine) : arrays (ls ++ ms) = arrays ls ++ arrays ms := by
  rw [arrays, List.map_append, List.filterMap_append]
  rfl

theorem bindings_of_single {ls : List PinLine} (h : ∀ x ∈ ls, x.listed = none) :
    bindings ls = ls.map fun x => x.name.toList := by
  have hsome : ∀ x ∈ ls, Reading.binding? x.reading = some x.name.toList := fun x hx => by
    simp [Reading.binding?, PinLine.reading, h x hx]
  rw [bindings, List.filterMap_map, ← List.filterMap_eq_map]
  exact List.filterMap_congr hsome

theorem arrays_of_single {ls : List PinLine} (h : ∀ x ∈ ls, x.listed = none) : arrays ls = [] := by
  rw [arrays, List.filterMap_map, List.filterMap_eq_nil_iff]
  intro x hx
  simp [Reading.array?, PinLine.reading, h x hx]

theorem bindings_block {ls : List PinLine} (h : ∀ x ∈ ls, x.listed = none) (name : String)
    (items : List String) :
    bindings (ls ++ [.array name items]) = ls.map fun x => x.name.toList := by
  rw [bindings_append, bindings_of_single h]
  exact List.append_nil _

theorem arrays_block {ls : List PinLine} (h : ∀ x ∈ ls, x.listed = none) (name : String)
    (items : List String) :
    arrays (ls ++ [.array name items]) = [(name.toList, items.map String.toList)] := by
  rw [arrays_append, arrays_of_single h]
  rfl

theorem listed_boundLines (ps : List Pin) (role : Role) :
    ∀ x ∈ ps.map fun p => PinLine.bound p.name p role .plain, x.listed = none := by
  intro x hx
  obtain ⟨p, -, rfl⟩ := List.mem_map.1 hx
  rfl

theorem listed_cellLines (ps : List Pin) (row : Nat) :
    ∀ x ∈ ps.zipIdx.map fun p => cellLine interrupt p.1 row p.2, x.listed = none := by
  intro x hx
  obtain ⟨q, -, rfl⟩ := List.mem_map.1 hx
  unfold cellLine
  split_ifs <;> rfl

theorem bindings_matrixLines (array : String) (ps : List Pin) (role : Role) :
    bindings (matrixLines array ps role) = ps.map fun p => p.name.toList := by
  rw [matrixLines, bindings_block (listed_boundLines ps role), List.map_map]
  rfl

theorem arrays_matrixLines (array : String) (ps : List Pin) (role : Role) :
    arrays (matrixLines array ps role) = [(array.toList, ps.map fun p => p.name.toList)] := by
  rw [matrixLines, arrays_block (listed_boundLines ps role), List.map_map]
  rfl

/-- The names of the places of a row. -/
def cellNames (ps : List Pin) (row : Nat) : List (List Char) :=
  ps.zipIdx.map fun p => (cellName p.1 row p.2).toList

theorem bindings_rowLines (ps : List Pin) (row : Nat) :
    bindings (rowLines interrupt ps row) = cellNames ps row := by
  rw [rowLines, bindings_block (listed_cellLines ps row), List.map_map]
  simp only [Function.comp_def, name_cellLine]
  rfl

theorem arrays_rowLines (ps : List Pin) (row : Nat) :
    arrays (rowLines interrupt ps row) = [((rowName row).toList, cellNames ps row)] := by
  rw [rowLines, arrays_block (listed_cellLines ps row), List.map_map]
  rfl

theorem bindings_flatMap {α : Type} (f : α → List PinLine) (xs : List α) :
    bindings (xs.flatMap f) = xs.flatMap fun x => bindings (f x) := by
  rw [bindings, List.map_flatMap, List.filterMap_flatMap]
  rfl

theorem arrays_flatMap {α : Type} (f : α → List PinLine) (xs : List α) :
    arrays (xs.flatMap f) = xs.flatMap fun x => arrays (f x) := by
  rw [arrays, List.map_flatMap, List.filterMap_flatMap]
  rfl

/-- **The arrays list what the other lines of a layout bind, in order.** -/
theorem listedBy_lines (l : Layout Pin) :
    ListedBy (arrays (lines interrupt l)) (bindings (lines interrupt l)) l := by
  cases l with
  | matrix rows cols =>
    refine ⟨rows.map fun p => p.name.toList, cols.map fun p => p.name.toList, ?_, ?_, ?_, ?_⟩
    · rw [lines, arrays_append, arrays_matrixLines, arrays_matrixLines]
      rfl
    · rw [lines, bindings_append, bindings_matrixLines, bindings_matrixLines]
    · exact List.length_map _
    · exact List.length_map _
  | grid rows =>
    refine ⟨rows.zipIdx.map fun r => ((rowName r.2).toList, cellNames r.1 r.2), ?_, ?_, ?_⟩
    · have hrows : arrays [PinLine.array "direct_pins" (rows.zipIdx.map fun r => rowName r.2)] =
          [("direct_pins".toList, (rows.zipIdx.map fun r => rowName r.2).map String.toList)] := rfl
      rw [lines, arrays_append, arrays_flatMap, hrows]
      simp only [arrays_rowLines, List.map_map]
      rw [← List.map_eq_flatMap]
      rfl
    · rw [lines, bindings_append, bindings_flatMap]
      simp only [bindings_rowLines]
      rw [List.flatMap_map]
      exact (List.append_nil _).symm
    · have hlength : ∀ r : List Pin × Nat, (cellNames r.1 r.2).length = r.1.length := fun r => by
        rw [cellNames, List.length_map, List.length_zipIdx]
      have hfst : (rows.zipIdx.map fun r => r.1.length) =
          (rows.zipIdx.map Prod.fst).map List.length :=
        List.map_map.symm
      rw [List.map_map]
      simp only [Function.comp_def, hlength]
      rw [hfst, List.zipIdx_map_fst]

end Emit

/-! ### Units -/

namespace Bus

open Code

variable {family : Family} {s : BusSettings} {shared : Bool} {bus : Fragment}

theorem IsConstruction.scopedAfter {rs : List Reading} (h : IsConstruction rs)
    (known : List (List Char)) : ScopedAfter known rs := by
  refine scopedAfter_of_known fun r hr x hx => ?_
  rcases h r hr with rfl | rfl
  · cases hx
  · cases hx

theorem scopedAfter_sharing {known : List (List Char)} (h : "i2c".toList ∈ known) :
    ScopedAfter known [sharingReading] := by
  have huses : sharingReading.uses = ["i2c".toList] := by decide
  rw [scopedAfter_cons, huses]
  exact ⟨List.forall_mem_singleton.2 h, scopedAfter_nil⟩

/-- The expander is brought up on the shared bus, and then split. -/
theorem scopedAfter_expander {known : List (List Char)} (h : "i2c_bus".toList ∈ known) :
    ScopedAfter known expanderReadings := by
  have hnew : Reading.uses ⟨some "mcp23x17".toList, ["&i2c_bus".toList], none⟩ =
      ["i2c_bus".toList] := by
    decide
  have hsplit : Reading.uses ⟨some "ge".toList, ["mcp23x17.split".toList], none⟩ =
      ["mcp23x17".toList] := by
    decide
  rw [expanderReadings, scopedAfter_cons, scopedAfter_cons, scopedAfter_cons, hnew, hsplit]
  refine ⟨List.forall_mem_singleton.2 h, List.forall_mem_singleton.2 ?_, fun x hx => ?_,
    scopedAfter_nil⟩
  · exact List.mem_append_right _ List.mem_cons_self
  · cases hx

/-- **What the lines for a bus use is introduced before it.** -/
theorem Built.scopedAfter (h : Built family s shared bus) :
    ScopedAfter [] (bus.lines.map read) := by
  obtain ⟨rs, hrs, hbus, heq⟩ := h.exists_readings
  rw [heq, scopedAfter_append, scopedAfter_append]
  refine ⟨hrs.scopedAfter [], ?_, ?_⟩
  · split_ifs with hshared
    · have hworks := (Bool.and_eq_true_iff.1 hshared).1
      exact scopedAfter_sharing (List.mem_filterMap.2 ⟨_, hbus hworks, rfl⟩)
    · exact scopedAfter_nil
  · by_cases hexpander : hasExpander family s = true
    · rw [if_pos hexpander, if_pos (isShared_of_hasExpander hexpander)]
      exact scopedAfter_expander (List.mem_append_right _ List.mem_cons_self)
    · rw [if_neg hexpander]
      exact scopedAfter_nil

theorem Built.mem_introduced (h : Built family s shared bus)
    (hshared : isShared family s shared = true) :
    "i2c_bus".toList ∈ (bus.lines.map read).filterMap Reading.introduced := by
  obtain ⟨rs, -, -, heq⟩ := h.exists_readings
  have hmem : sharingReading ∈ bus.lines.map read := by
    rw [heq, if_pos hshared]
    simp
  exact List.mem_filterMap.2 ⟨_, hmem, rfl⟩

theorem sharedBusStatement_not_mem {lines : List String}
    (h : ∀ r ∈ lines.map read, r.introduced ≠ some "i2c_bus".toList) :
    Expander.sharedBusStatement ∉ lines := by
  intro hmem
  refine h _ (List.mem_map_of_mem hmem) ?_
  rw [read_sharing]
  rfl

theorem Built.count_sharedBusStatement (h : Built family s shared bus) :
    bus.lines.count Expander.sharedBusStatement = if isShared family s shared then 1 else 0 := by
  obtain ⟨lines, hlines, -, heq⟩ := h.exists_lines
  have hconstruction : lines.count Expander.sharedBusStatement = 0 := by
    refine List.count_eq_zero.2 (sharedBusStatement_not_mem fun r hr => ?_)
    rcases hlines r hr with rfl | rfl
    · decide
    · decide
  have hexpander : (if hasExpander family s then
      (expanderStatements s.address).lines else []).count Expander.sharedBusStatement = 0 := by
    split_ifs with hworks
    · have hparts := Bool.and_eq_true_iff.1 hworks
      refine List.count_eq_zero.2 (sharedBusStatement_not_mem ?_)
      rw [map_read_expanderStatements (h.isAddress hparts.1 hparts.2)]
      decide
    · rfl
  rw [heq, List.count_append, List.count_append, hconstruction, hexpander]
  split_ifs <;> simp

theorem Built.count_moved_le (h : Built family s shared bus) :
    ((bus.lines.map read).flatMap Reading.bus).count "i2c".toList ≤ 1 := by
  obtain ⟨rs, hrs, -, heq⟩ := h.exists_readings
  have hconstruction : rs.flatMap Reading.bus = [] := by
    rw [List.flatMap_eq_nil_iff]
    intro r hr
    rcases hrs r hr with rfl | rfl
    · rfl
    · rfl
  have hcount : ∀ c d : Bool, (((if c then [sharingReading] else []) ++
      if d then expanderReadings else []).flatMap Reading.bus).count "i2c".toList ≤ 1 := by
    decide
  rw [heq, List.flatMap_append, hconstruction, List.nil_append]
  exact hcount _ _

theorem Built.array?_eq (h : Built family s shared bus) :
    (bus.lines.map read).filterMap Reading.array? = [] := by
  obtain ⟨rs, hrs, -, heq⟩ := h.exists_readings
  have hconstruction : rs.filterMap Reading.array? = [] := by
    rw [List.filterMap_eq_nil_iff]
    intro r hr
    rcases hrs r hr with rfl | rfl
    · rfl
    · rfl
  have hrest : ∀ c d : Bool, ((if c then [sharingReading] else []) ++
      if d then expanderReadings else []).filterMap Reading.array? = [] := by
    decide
  rw [heq, List.filterMap_append, hconstruction, List.nil_append, hrest]

end Bus

/-- What the lines of a unit read as. -/
def GeneratedUnit.readings (u : GeneratedUnit) : List Code.Reading := u.lines.map Code.read

namespace Board

open Code

variable {b : Board} {source : String} {u : GeneratedUnit}

theorem Compiled.map_read_pins (h : Compiled b source u) :
    u.pins.lines.map Code.read = (Emit.lines b.keys.interrupt b.pins).map PinLine.reading := by
  rw [h.lines_eq, List.map_map]
  exact List.map_congr_left fun x hx =>
    PinLine.read_text (h.isNamed_lines x hx) (h.isReady_lines x hx)

theorem Compiled.readings_eq (h : Compiled b source u) :
    u.readings = u.bus.lines.map Code.read ++
      (Emit.lines b.keys.interrupt b.pins).map PinLine.reading := by
  rw [GeneratedUnit.readings, GeneratedUnit.lines, List.map_append, h.map_read_pins]

/-- The bus of a compiled board is shared if it is enabled and has an expander, or if a key is on
an expander. -/
theorem Compiled.isShared_eq (h : Compiled b source u) :
    Bus.isShared b.family b.bus (b.pins.toList.any Pin.isExpander) =
      (b.bus.enabled && b.bus.expander || b.pins.toList.any Pin.isExpander) := by
  have hexpanders := h.expanders
  rw [hasBus] at hexpanders
  rw [Bus.isShared]
  generalize b.pins.toList.any Pin.isExpander = shared at hexpanders
  cases shared with
  | true => simp [hexpanders rfl]
  | false =>
    have hbus := h.bus
    generalize u.bus = bus at hbus
    cases hbus with
    | disabled off => simp [off]
    | unsupported _ _ bare => simp [bare]
    | constructed on hfam => simp [on, hfam]

theorem Compiled.scopedAfter (h : Compiled b source u) : ScopedAfter [] u.readings := by
  rw [h.readings_eq, scopedAfter_append]
  refine ⟨h.bus.scopedAfter, Emit.scopedAfter_lines fun hany => ?_⟩
  refine List.mem_append_right _ (h.bus.mem_introduced ?_)
  rw [h.isShared_eq, hany, Bool.or_true]

theorem Compiled.count_sharedBusStatement (h : Compiled b source u) :
    u.lines.count Expander.sharedBusStatement =
      if b.bus.enabled && b.bus.expander || b.pins.toList.any Pin.isExpander then 1 else 0 := by
  have hpins : u.pins.lines.count Expander.sharedBusStatement = 0 := by
    refine List.count_eq_zero.2 (Bus.sharedBusStatement_not_mem fun r hr => ?_)
    rw [h.map_read_pins] at hr
    obtain ⟨x, hx, rfl⟩ := List.mem_map.1 hr
    have hapart := (h.isNamed_lines x hx).1.apart
    intro hname
    rw [Option.some.inj hname] at hapart
    exact hapart (by decide)
  rw [GeneratedUnit.lines, List.count_append, h.bus.count_sharedBusStatement, hpins, h.isShared_eq,
    Nat.add_zero]

theorem Compiled.count_moved_le (h : Compiled b source u) :
    (u.readings.flatMap Reading.bus).count "i2c".toList ≤ 1 := by
  have hpins : ((u.pins.lines.map Code.read).flatMap Reading.bus).count "i2c".toList = 0 := by
    rw [h.map_read_pins, List.count_eq_zero]
    intro hmem
    obtain ⟨r, hr, hword⟩ := List.mem_flatMap.1 hmem
    obtain ⟨x, -, rfl⟩ := List.mem_map.1 hr
    have hborrows : ∀ w ∈ x.borrows, w = "&i2c_bus".toList := by
      intro w hw
      unfold PinLine.borrows at hw
      split at hw
      · exact List.mem_singleton.1 hw
      · cases hw
    exact absurd (hborrows _ hword) (by decide)
  rw [GeneratedUnit.readings, GeneratedUnit.lines, List.map_append, List.flatMap_append,
    List.count_append, hpins, Nat.add_zero]
  exact h.bus.count_moved_le

theorem Compiled.listedBy (h : Compiled b source u) :
    ListedBy (u.readings.filterMap Reading.array?)
      ((u.pins.lines.map Code.read).filterMap Reading.binding?) b.pins := by
  rw [h.readings_eq, List.filterMap_append, h.bus.array?_eq, List.nil_append, h.map_read_pins]
  exact Emit.listedBy_lines b.pins

/-- **A unit is well scoped and moves its bus at most once.**  What a line uses is introduced
before it; the bus is made shared once if the enabled bus has an expander or a key is on one, and
never otherwise; and the arrays list what the lines for the pins bind, in order. -/
theorem unit_well_scoped (h : b.generate source = .ok u) :
    ScopedAfter [] u.readings ∧
      (u.lines.count Expander.sharedBusStatement =
        if b.bus.enabled && b.bus.expander || b.pins.toList.any Pin.isExpander then 1 else 0) ∧
      (u.readings.flatMap Reading.bus).count "i2c".toList ≤ 1 ∧
      ListedBy (u.readings.filterMap Reading.array?)
        ((u.pins.lines.map Code.read).filterMap Reading.binding?) b.pins := by
  have hcompiled := generate_eq_ok_iff.1 h
  exact ⟨hcompiled.scopedAfter, hcompiled.count_sharedBusStatement, hcompiled.count_moved_le,
    hcompiled.listedBy⟩

/-- A board whose expander carries some of its keys. -/
def tower : Board where
  name := "tower"
  chip := "STM32F411CE"
  family := .stm32
  keys := ⟨.grid [[.text "PA0", .text "MI20_A0"], [.text "_", .text "MI20_B7"]], false, true⟩
  bus := ⟨true, .text "PB7", .text "PB6", .null, true, 0x20⟩

/-- It is compiled, and its bus is made shared once. -/
theorem unit_well_scoped_tower :
    ∃ u, tower.generate "" = .ok u ∧ ScopedAfter [] u.readings ∧
      u.lines.count Expander.sharedBusStatement = 1 := by
  obtain ⟨u, hu⟩ := exists_unit (b := tower) (by decide) rfl ""
  have hexpanders : (tower.bus.enabled && tower.bus.expander ||
      tower.pins.toList.any Pin.isExpander) = true := rfl
  have hscoped := unit_well_scoped hu
  refine ⟨u, hu, hscoped.1, ?_⟩
  rw [hscoped.2.1, hexpanders]
  rfl

/-- A board whose bus has an expander and is switched off. -/
def idle : Board where
  name := "idle"
  chip := "STM32F411CE"
  family := .stm32
  keys := ⟨.matrix [.text "PA0"] [.text "PA1"], false, true⟩
  bus := ⟨false, .text "PB7", .text "PB6", .null, true, 0x20⟩

/-- It is compiled, and no bus is made shared. -/
theorem no_shared_bus_idle :
    idle.bus.expander = true ∧ ∃ u, idle.generate "" = .ok u ∧
      u.lines.count Expander.sharedBusStatement = 0 := by
  obtain ⟨u, hu⟩ := exists_unit (b := idle) (by decide) rfl ""
  have hexpanders : (idle.bus.enabled && idle.bus.expander ||
      idle.pins.toList.any Pin.isExpander) = false := rfl
  refine ⟨rfl, u, hu, ?_⟩
  rw [(generate_eq_ok_iff.1 hu).count_sharedBusStatement, hexpanders]
  rfl

end Board

end BoardWiring
