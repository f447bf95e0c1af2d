import BoardWiring.Board.Reader
import BoardWiring.Proofs.BusStatements
import BoardWiring.Proofs.Faults

/-!
# The shape of a description

Which values are read as board descriptions, and as which boards.

* `KeyWiring.Described`, `BusSettings.Described` and `Board.Described` say what has the shape of a
  section and of the whole; `ofValue_eq_ok_iff` in each of the three says that it is this that is
  read;
* `Board.failsOnly_ofValue` says that what is not read has not this shape, or holds an integer
  that is too long to be written;
* `Value.isWritable_field` says that a part of a value without long integers has none.
-/

namespace BoardWiring

open Outcome

namespace ConfigError

/-- The error is that a description has not the shape of one. -/
def IsValidation (e : ConfigError) : Prop := ∃ message raw, e = .validation message raw

@[simp] theorem isValidation_validation (message : String) (raw : Value) :
    IsValidation (.validation message raw) := ⟨message, raw, rfl⟩

@[simp] theorem isValidation_invalid (message : String) : IsValidation (.invalid message) :=
  ⟨message, .null, rfl⟩

end ConfigError

namespace Failure

/-- A fault of reading a value: it has not the right shape, or one of its integers is too long to
be written. -/
inductive Misread (v : Value) : Failure → Prop where
  | shape {e : ConfigError} (validation : e.IsValidation) : Misread v (.config e)
  | length (long : v.isWritable = false) : Misread v .longInteger

@[simp] theorem misread_config_iff {v : Value} {e : ConfigError} :
    Misread v (.config e) ↔ e.IsValidation :=
  ⟨fun | .shape h => h, .shape⟩

end Failure

namespace Value

/-! ### Writable values -/

mutual

theorem isWritable_close {v : Value} (hv : v.isWritable = true) (n : Nat) :
    ∀ w : Value, w.isWritable = true → (close v n w).isWritable = true
  | .list xs => areWritable_closeList hv n xs
  | .mapping es => entriesWritable_closeEntries hv n es
  | .pair a b => fun h => by
    obtain ⟨ha, hb⟩ := Bool.and_eq_true_iff.1 h
    exact Bool.and_eq_true_iff.2 ⟨isWritable_close hv n a ha, isWritable_close hv n b hb⟩
  | .cyclic m b => fun h => by
    rw [close]
    split_ifs
    · exact h
    · exact isWritable_close hv n b h
  | .again m => fun h => by
    rw [close]
    split_ifs
    · exact hv
    · exact h
  | .null | .bool _ | .int _ | .float _ | .text _ | .torn _ | .bytes _ | .date _ | .moment _
  | .set _ =>
    fun h => by simpa only [close] using h

theorem areWritable_closeList {v : Value} (hv : v.isWritable = true) (n : Nat) :
    ∀ xs : List Value, areWritable xs = true → areWritable (closeList v n xs) = true
  | [] => id
  | x :: xs => fun h => by
    obtain ⟨hx, hxs⟩ := Bool.and_eq_true_iff.1 h
    exact Bool.and_eq_true_iff.2 ⟨isWritable_close hv n x hx, areWritable_closeList hv n xs hxs⟩

theorem entriesWritable_closeEntries {v : Value} (hv : v.isWritable = true) (n : Nat) :
    ∀ es : List (Value × Value), entriesWritable es = true →
      entriesWritable (closeEntries v n es) = true
  | [] => id
  | (k, x) :: es => fun h => by
    obtain ⟨hkx, hes⟩ := Bool.and_eq_true_iff.1 h
    obtain ⟨hk, hx⟩ := Bool.and_eq_true_iff.1 hkx
    have hkx' := Bool.and_eq_true_iff.2 ⟨isWritable_close hv n k hk, isWritable_close hv n x hx⟩
    exact Bool.and_eq_true_iff.2 ⟨hkx', entriesWritable_closeEntries hv n es hes⟩

end

theorem isWritable_body {v : Value} (h : v.isWritable = true) : v.body.isWritable = true := by
  cases v with
  | cyclic n b => exact isWritable_close h n b h
  | _ => exact h

theorem isWritable_find? {key v : Value} {es : List (Value × Value)}
    (h : entriesWritable es = true) (hv : find? key es = some v) : v.isWritable = true := by
  induction es with
  | nil => cases hv
  | cons e es ih =>
    obtain ⟨hkx, hes⟩ := Bool.and_eq_true_iff.1 h
    rw [find?] at hv
    split_ifs at hv
    · cases hv
      exact (Bool.and_eq_true_iff.1 hkx).2
    · exact ih hes hv

theorem isWritable_field {v : Value} (h : v.isWritable = true) (name : String) :
    (Section.field v name).isWritable = true := by
  have hbody := isWritable_body h
  unfold Section.field field?
  split
  · rename_i es hes
    rw [hes] at hbody
    cases hf : find? (.text name) es with
    | none => rfl
    | some x => exact isWritable_find? hbody hf
  · rfl

end Value

namespace Section

variable {v x : Value} {name context : String} {absent b : Bool} {xs : List Value}

/-- The truth value that a field stands for, `absent` if it is missing; other values stand for
none. -/
def truth? (absent : Bool) : Value → Option Bool
  | .null => some absent
  | .bool b => some b
  | _ => none

theorem flag_eq_ok_iff :
    flag v name context absent = .ok b ↔ truth? absent (field v name) = some b := by
  unfold flag
  cases field v name <;> simp [truth?]

theorem isNull_iff : x.isNull = true ↔ x = .null := by
  cases x <;> simp [Value.isNull]

theorem isNull_eq_false_iff : x.isNull = false ↔ x ≠ .null := by
  rw [ne_eq, ← isNull_iff, Bool.not_eq_true]

theorem required_eq_ok_iff :
    required v name context = .ok x ↔ x ≠ .null ∧ field v name = x := by
  unfold required
  split_ifs with h
  · rw [isNull_iff] at h
    simp only [h, false_iff, not_and]
    intro hx hnull
    exact hx hnull.symm
  · rw [isNull_iff] at h
    simp only [Except.ok.injEq, iff_and_self]
    rintro rfl
    exact h

@[simp] theorem isNull_null : Value.null.isNull = true := rfl

theorem ne_null_of_items (h : x.items? = some xs) : x ≠ .null := by
  rintro rfl
  cases h

theorem ne_null_of_isMapping (h : x.isMapping = true) : x ≠ .null := by
  rintro rfl
  cases h

/-- A field is there, and its value has a text. -/
structure HasText (v : Value) (name : String) (t : LooseText) : Prop where
  there : field v name ≠ .null
  short : (field v name).isWritable = true
  text_eq : t = (field v name).asText

theorem hasText_iff {t : LooseText} (hw : (field v name).isWritable = true) :
    HasText v name t ↔ field v name ≠ .null ∧ t = (field v name).asText :=
  ⟨fun h => ⟨h.there, h.text_eq⟩, fun h => ⟨h.1, hw, h.2⟩⟩

theorem requiredText_eq_ok_iff {t : LooseText} :
    requiredText v name context = .ok t ↔ HasText v name t := by
  unfold requiredText
  simp only [bind_eq_ok_iff, Failure.ofConfig_eq_ok_iff, required_eq_ok_iff]
  constructor
  · rintro ⟨x, ⟨hx, rfl⟩, ht⟩
    unfold Value.written at ht
    split_ifs at ht with hw
    exact ⟨hx, hw, (Except.ok.inj ht).symm⟩
  · rintro ⟨hx, hw, rfl⟩
    exact ⟨_, ⟨hx, rfl⟩, by rw [Value.written, if_pos hw]⟩

@[simp] theorem failsOnly_flag :
    FailsOnly ConfigError.IsValidation (flag v name context absent) := by
  unfold flag
  split <;> simp

@[simp] theorem failsOnly_required :
    FailsOnly ConfigError.IsValidation (required v name context) := by
  simp [required]

theorem failsOnly_requiredText {w : Value} (hw : w.isWritable = true → v.isWritable = true) :
    FailsOnly (Failure.Misread w) (requiredText v name context) := by
  simp only [requiredText, failsOnly_bind_iff, failsOnly_ofConfig_iff,
    Failure.misread_config_iff, failsOnly_required, true_and, Failure.ofConfig_eq_ok_iff,
    required_eq_ok_iff]
  rintro x ⟨-, rfl⟩
  rw [Value.written]
  split_ifs with hx
  · simp
  · refine failsOnly_error_iff.2 (.length (Bool.eq_false_iff.2 fun h => hx ?_))
    exact Value.isWritable_field (hw h) name

@[simp] theorem failsOnly_pinList : FailsOnly ConfigError.IsValidation (pinList v context) := by
  unfold pinList
  split <;> simp

theorem pinList_eq_ok_iff : pinList v context = .ok xs ↔ v.items? = some xs := by
  unfold pinList
  cases v.items? <;> simp

end Section

namespace KeyWiring

open Section

variable {v : Value}

/-- The two forms of the section on the keys: a list of rows for a grid, or a list of pins for the
rows and one for the columns.  What belongs to the other form must be missing. -/
inductive Form (v : Value) : Layout Value → Prop where
  | grid {rows : List Value} {entries : List (List Value)}
      (inputs : field v "input_pins" = .null) (outputs : field v "output_pins" = .null)
      (direct : (field v "direct_pins").items? = some rows) (nonempty : rows ≠ [])
      (each : rows.map Value.items? = entries.map some) : Form v (.grid entries)
  | matrix {rows cols : List Value} (direct : field v "direct_pins" = .null)
      (inputs : (field v "input_pins").items? = some rows)
      (outputs : (field v "output_pins").items? = some cols) : Form v (.matrix rows cols)

/-- The section on the keys has the shape of one, and says how the keys are wired. -/
structure Described (v : Value) (k : KeyWiring) : Prop where
  mapping : v.isMapping = true
  interrupt : truth? false (field v "async_matrix") = some k.interrupt
  activeLow : truth? false (field v "active_low") = some k.activeLow
  form : Form v k.layout

theorem mapM_pinList_eq_ok_iff {rows : List Value} {entries : List (List Value)} {start : Nat} :
    ((rows.zipIdx start).mapM fun r =>
      pinList r.1 ("matrix.direct_pins[" ++ Digits.decimal r.2 ++ "]")) = .ok entries ↔
        rows.map Value.items? = entries.map some := by
  induction rows generalizing entries start with
  | nil => cases entries <;> simp
  | cons row rows ih =>
    simp only [List.zipIdx_cons, List.mapM_cons, bind_eq_ok_iff, pinList_eq_ok_iff, ih, pure_eq_ok,
      Except.ok.injEq, List.map_cons]
    constructor
    · rintro ⟨xs, hxs, ys, hys, rfl⟩
      rw [hxs, hys, List.map_cons]
    · intro h
      cases entries with
      | nil => cases h
      | cons xs ys =>
        rw [List.map_cons, List.cons.injEq] at h
        exact ⟨xs, h.1, ys, h.2, rfl⟩

theorem gridOf_eq_ok_iff {entries : List (List Value)} :
    gridOf v = .ok entries ↔
      ∃ rows, v.items? = some rows ∧ rows ≠ [] ∧ rows.map Value.items? = entries.map some := by
  unfold gridOf
  split
  · rename_i row rows hrows
    rw [mapM_pinList_eq_ok_iff, hrows]
    simp
  · rename_i hrows
    simp only [reduceCtorEq, false_iff, not_exists, not_and]
    intro rows hitems hne
    cases rows with
    | nil => exact absurd rfl hne
    | cons row rows => exact absurd hitems (hrows row rows)

@[simp] theorem failsOnly_gridOf : FailsOnly ConfigError.IsValidation (gridOf v) := by
  unfold gridOf
  split
  · exact failsOnly_mapM fun _ _ => failsOnly_pinList
  · simp

@[simp] theorem failsOnly_ofValue : FailsOnly ConfigError.IsValidation (ofValue v) := by
  simp [ofValue, layoutOf]

/-- **The layout is read if and only if the section has one of the two forms.** -/
theorem layoutOf_eq_ok_iff {l : Layout Value} : layoutOf v = .ok l ↔ Form v l := by
  unfold layoutOf
  constructor
  · intro h
    -- The direct pins alone decide which of the forms is read.
    cases hdirect : (field v "direct_pins").isNull with
    | false =>
      simp only [hdirect, Bool.not_false, Bool.true_and, if_true] at h
      split_ifs at h with hrows
      obtain ⟨entries, hentries, h⟩ := bind_eq_ok_iff.1 h
      obtain ⟨rows, hrows', hne, heach⟩ := gridOf_eq_ok_iff.1 hentries
      simp only [Bool.or_eq_true, Bool.not_eq_true', isNull_eq_false_iff, not_or, not_not] at hrows
      cases h
      exact .grid hrows.1 hrows.2 hrows' hne heach
    | true =>
      simp only [hdirect, Bool.not_true, Bool.false_and, Bool.false_eq_true, if_false,
        bind_eq_ok_iff, required_eq_ok_iff, pinList_eq_ok_iff] at h
      obtain ⟨_, ⟨-, rfl⟩, rows, hrows, _, ⟨-, rfl⟩, cols, hcols, h⟩ := h
      cases h
      exact .matrix (isNull_iff.1 hdirect) hrows hcols
  · rintro (⟨hin, hout, hdirect, hne, heach⟩ | ⟨hdirect, hin, hout⟩)
    · have hgrid := isNull_eq_false_iff.2 (ne_null_of_items hdirect)
      have hentries := gridOf_eq_ok_iff.2 ⟨_, hdirect, hne, heach⟩
      simp [hgrid, hin, hout, hentries]
    · simp only [hdirect, isNull_null, Bool.not_true, Bool.false_and, Bool.false_eq_true, if_false,
        bind_eq_ok_iff, required_eq_ok_iff, pinList_eq_ok_iff]
      exact ⟨_, ⟨ne_null_of_items hin, rfl⟩, _, hin, _, ⟨ne_null_of_items hout, rfl⟩, _, hout, rfl⟩

theorem ofValue_eq_ok_iff {k : KeyWiring} : ofValue v = .ok k ↔ Described v k := by
  unfold ofValue
  split_ifs with hmapping
  · simp only [bind_eq_ok_iff, flag_eq_ok_iff, layoutOf_eq_ok_iff, pure_eq_ok, Except.ok.injEq]
    constructor
    · rintro ⟨interrupt, hinterrupt, activeLow, hactiveLow, layout, hform, rfl⟩
      exact ⟨hmapping, hinterrupt, hactiveLow, hform⟩
    · rintro ⟨-, hinterrupt, hactiveLow, hform⟩
      exact ⟨_, hinterrupt, _, hactiveLow, _, hform, rfl⟩
  · simp only [false_iff]
    intro h
    exact hmapping h.mapping

end KeyWiring

namespace BusSettings

open Section

variable {v : Value} {s : BusSettings}

/-- The section on the bus has the shape of one, and says how the bus is wired.  Of a bus that is
not enabled nothing else is read. -/
inductive Described (v : Value) : BusSettings → Prop where
  | missing (absent : v = .null) : Described v .none
  | disabled (mapping : v.isMapping = true) (off : truth? true (field v "enabled") = some false) :
      Described v .none
  | enabled {address : Int} {expander : Bool} (mapping : v.isMapping = true)
      (on : truth? true (field v "enabled") = some true)
      (frequency : field v "frequency_khz" = .null ∨ ∃ f, field v "frequency_khz" = .int f)
      (place : v.field? "expander_address" = Option.none ∧ address = ExpanderPin.minAddress ∨
        v.field? "expander_address" = some (.int address))
      (sda : field v "sda" ≠ .null) (scl : field v "scl" ≠ .null)
      (hangs : truth? false (field v "expander") = some expander) :
      Described v ⟨true, (field v "sda").asText.value, (field v "scl").asText.value,
        field v "frequency_khz", expander, address⟩

theorem frequencyOf_eq_ok_iff {x : Value} :
    frequencyOf v = .ok x ↔
      (field v "frequency_khz" = .null ∨ ∃ f, field v "frequency_khz" = .int f) ∧
        x = field v "frequency_khz" := by
  unfold frequencyOf
  cases field v "frequency_khz" <;> simp [eq_comm]

theorem addressOf_eq_ok_iff {a : Int} :
    addressOf v = .ok a ↔
      v.field? "expander_address" = Option.none ∧ a = ExpanderPin.minAddress ∨
        v.field? "expander_address" = some (.int a) := by
  unfold addressOf
  cases v.field? "expander_address" with
  | none => simp [eq_comm]
  | some x => cases x <;> simp

theorem enabledOf_eq_ok_iff (hw : v.isWritable = true) :
    enabledOf v = .ok s ↔ ∃ frequency address expander,
      frequencyOf v = .ok frequency ∧ addressOf v = .ok address ∧
      field v "sda" ≠ .null ∧ field v "scl" ≠ .null ∧
      truth? false (field v "expander") = some expander ∧
      s = ⟨true, (field v "sda").asText.value, (field v "scl").asText.value, frequency, expander,
        address⟩ := by
  unfold enabledOf
  simp only [bind_eq_ok_iff, Failure.ofConfig_eq_ok_iff, flag_eq_ok_iff,
    requiredText_eq_ok_iff, hasText_iff (Value.isWritable_field hw _), pure_eq_ok, Except.ok.injEq]
  constructor
  · rintro ⟨frequency, hf, address, ha, _, ⟨hsda, rfl⟩, _, ⟨hscl, rfl⟩, expander, hx, rfl⟩
    exact ⟨frequency, address, expander, hf, ha, hsda, hscl, hx, rfl⟩
  · rintro ⟨frequency, address, expander, hf, ha, hsda, hscl, hx, rfl⟩
    exact ⟨frequency, hf, address, ha, _, ⟨hsda, rfl⟩, _, ⟨hscl, rfl⟩, expander, hx, rfl⟩

theorem ofValue_eq_ok_iff (hw : v.isWritable = true) : ofValue v = .ok s ↔ Described v s := by
  unfold ofValue
  constructor
  · intro h
    split_ifs at h with hnull hmapping
    · cases h
      exact .missing (isNull_iff.1 hnull)
    · obtain ⟨enabled, henabled, h⟩ := bind_eq_ok_iff.1 h
      rw [Failure.ofConfig_eq_ok_iff, flag_eq_ok_iff] at henabled
      cases enabled with
      | false =>
        cases h
        exact .disabled hmapping henabled
      | true =>
        obtain ⟨_, address, expander, hf, ha, hsda, hscl, hx, rfl⟩ :=
          (enabledOf_eq_ok_iff hw).1 h
        obtain ⟨hf', rfl⟩ := frequencyOf_eq_ok_iff.1 hf
        exact .enabled hmapping henabled hf' (addressOf_eq_ok_iff.1 ha) hsda hscl hx
  · rintro (rfl | ⟨hmapping, hoff⟩ | ⟨hmapping, hon, hf, ha, hsda, hscl, hx⟩)
    · rfl
    · have hflag : Failure.ofConfig (flag v "enabled" "i2c" true) = .ok false :=
        Failure.ofConfig_eq_ok_iff.2 (flag_eq_ok_iff.2 hoff)
      simp [isNull_eq_false_iff.2 (ne_null_of_isMapping hmapping), hmapping, hflag]
    · have hflag : Failure.ofConfig (flag v "enabled" "i2c" true) = .ok true :=
        Failure.ofConfig_eq_ok_iff.2 (flag_eq_ok_iff.2 hon)
      have henabled := (enabledOf_eq_ok_iff hw).2 ⟨_, _, _, frequencyOf_eq_ok_iff.2 ⟨hf, rfl⟩,
        addressOf_eq_ok_iff.2 ha, hsda, hscl, hx, rfl⟩
      simp [isNull_eq_false_iff.2 (ne_null_of_isMapping hmapping), hmapping, hflag, henabled]

@[simp] theorem failsOnly_frequencyOf : FailsOnly ConfigError.IsValidation (frequencyOf v) := by
  unfold frequencyOf
  split <;> simp

@[simp] theorem failsOnly_addressOf : FailsOnly ConfigError.IsValidation (addressOf v) := by
  unfold addressOf
  split <;> simp

theorem failsOnly_ofValue {w : Value} (hw : w.isWritable = true → v.isWritable = true) :
    FailsOnly (Failure.Misread w) (ofValue v) := by
  simp [ofValue, enabledOf, failsOnly_requiredText hw]

end BusSettings

namespace Board

open Section

variable {v : Value} {b : Board}

/-- A value has the shape of a board description, and says what the board is. -/
structure Described (v : Value) (b : Board) : Prop where
  root : v.isMapping = true
  about : (field v "board").isMapping = true
  name : field (field v "board") "name" ≠ .null
  name_eq : b.name = (field (field v "board") "name").asText
  chip : field (field v "board") "chip" ≠ .null
  chip_eq : b.chip = (field (field v "board") "chip").asText
  /-- No half of a pair is in the name of a family, so what stands before the first one counts. -/
  family : Family.ofChip? b.chip.head = some b.family
  keys : KeyWiring.Described (field v "matrix") b.keys
  bus : BusSettings.Described (field v "i2c") b.bus

theorem familyOf_eq_ok_iff {chip : LooseText} {family : Family} :
    familyOf chip = .ok family ↔ Family.ofChip? chip.head = some family := by
  unfold familyOf
  cases Family.ofChip? chip.head <;> simp

theorem ofValue_eq_ok_iff (hw : v.isWritable = true) : ofValue v = .ok b ↔ Described v b := by
  have habout : (field v "board").isWritable = true := Value.isWritable_field hw "board"
  unfold ofValue
  constructor
  · intro h
    split_ifs at h with hroot
    obtain ⟨about, habout_eq, h⟩ := bind_eq_ok_iff.1 h
    obtain ⟨-, rfl⟩ := required_eq_ok_iff.1 (Failure.ofConfig_eq_ok_iff.1 habout_eq)
    split_ifs at h with hmapping
    simp only [bind_eq_ok_iff, Failure.ofConfig_eq_ok_iff, required_eq_ok_iff, familyOf_eq_ok_iff,
      requiredText_eq_ok_iff, hasText_iff (Value.isWritable_field habout _),
      KeyWiring.ofValue_eq_ok_iff, BusSettings.ofValue_eq_ok_iff (Value.isWritable_field hw _)] at h
    obtain ⟨name, hname, chip, hchip, family, hfamily, _, ⟨-, rfl⟩, keys, hkeys, bus, hbus, h⟩ := h
    cases h
    exact ⟨hroot, hmapping, hname.1, hname.2, hchip.1, hchip.2, hfamily, hkeys, hbus⟩
  · rintro ⟨hroot, hmapping, hname, hname_eq, hchip, hchip_eq, hfamily, hkeys, hbus⟩
    obtain ⟨name, chip, family, keys, bus⟩ := b
    rw [if_pos hroot, bind_eq_ok_iff]
    refine ⟨_, Failure.ofConfig_eq_ok_iff.2 (required_eq_ok_iff.2
      ⟨ne_null_of_isMapping hmapping, rfl⟩), ?_⟩
    simp only [if_pos hmapping, bind_eq_ok_iff, Failure.ofConfig_eq_ok_iff, required_eq_ok_iff,
      familyOf_eq_ok_iff, requiredText_eq_ok_iff, hasText_iff (Value.isWritable_field habout _),
      KeyWiring.ofValue_eq_ok_iff, BusSettings.ofValue_eq_ok_iff (Value.isWritable_field hw _)]
    exact ⟨name, ⟨hname, hname_eq⟩, chip, ⟨hchip, hchip_eq⟩, family, hfamily, _,
      ⟨ne_null_of_isMapping hkeys.mapping, rfl⟩, keys, hkeys, bus, hbus, rfl⟩

@[simp] theorem failsOnly_familyOf {chip : LooseText} :
    FailsOnly ConfigError.IsValidation (familyOf chip) := by
  unfold familyOf
  split <;> simp

/-- **A value is not read for no other reason than its shape, or the length of its integers.** -/
theorem failsOnly_ofValue : FailsOnly (Failure.Misread v) (ofValue v) := by
  have hfield {name : String} : v.isWritable = true → (field v name).isWritable = true :=
    fun h => Value.isWritable_field h name
  simp only [ofValue, pure_eq_ok, failsOnly_ite_iff, failsOnly_bind_iff, failsOnly_ok,
    failsOnly_error_iff, failsOnly_ofConfig_iff, Failure.misread_config_iff,
    ConfigError.isValidation_invalid, failsOnly_required, failsOnly_familyOf,
    KeyWiring.failsOnly_ofValue, BusSettings.failsOnly_ofValue hfield, required_eq_ok_iff,
    Failure.ofConfig_eq_ok_iff, implies_true, and_true, true_and, and_imp]
  rintro - _ - rfl -
  -- Only the name and the chip are left: they are written, so that they may be too long.
  exact ⟨failsOnly_requiredText hfield, fun _ _ => failsOnly_requiredText hfield⟩

/-- **A value whose integers are not too long is read as a board if and only if it has the shape
of a description of that board; what has the shape of none is a validation error.** -/
theorem ofValue_described (hw : v.isWritable = true) :
    (∀ b, ofValue v = .ok b ↔ Described v b) ∧
      ((∀ b, ¬Described v b) →
        ∃ message raw, ofValue v = .error (.config (.validation message raw))) := by
  refine ⟨fun b => ofValue_eq_ok_iff hw, fun hnone => ?_⟩
  cases h : ofValue v with
  | ok b => exact absurd ((ofValue_eq_ok_iff hw).1 h) (hnone b)
  | error f =>
    cases failsOnly_ofValue f h with
    | shape validation =>
      obtain ⟨message, raw, rfl⟩ := validation
      exact ⟨message, raw, rfl⟩
    | length long => simp [hw] at long

/-- A description of a grid with a disabled bus, some of its fields null or not as they would have
to be if they were read. -/
def pad : Value :=
  .mapping [
    (.text "board", .mapping [(.text "name", .bool true), (.text "chip", .text "RP2040")]),
    (.text "matrix", .mapping [
      (.text "direct_pins", .list [.list [.text "GPIO1", .null], .list []]),
      (.text "input_pins", .null), (.text "async_matrix", .bool true)]),
    (.text "i2c", .mapping [(.text "enabled", .bool false), (.text "frequency_khz", .text "fast")])]

/-- The same keys in both forms. -/
def padTwice : Value :=
  .mapping [
    (.text "board", .mapping [(.text "name", .bool true), (.text "chip", .text "RP2040")]),
    (.text "matrix", .mapping [
      (.text "direct_pins", .list [.list [.text "GPIO1", .null], .list []]),
      (.text "input_pins", .list []), (.text "async_matrix", .bool true)])]

theorem ofValue_described_pad :
    (pad.isWritable = true ∧ ofValue pad = .ok ⟨"True", "RP2040", .rp2040,
      ⟨.grid [[.text "GPIO1", .null], []], true, false⟩, .none⟩) ∧
    padTwice.isWritable = true ∧
      ∃ message raw, ofValue padTwice = .error (.config (.validation message raw)) := by
  have hpad : pad.isWritable = true := by decide
  have hpadTwice : padTwice.isWritable = true := by decide
  refine ⟨⟨hpad, ((ofValue_described hpad).1 _).2 ?_⟩, hpadTwice,
    (ofValue_described hpadTwice).2 fun b hb => ?_⟩
  · have hkeys : KeyWiring.Form (field pad "matrix") (.grid [[.text "GPIO1", .null], []]) :=
      .grid rfl rfl rfl nofun rfl
    exact ⟨rfl, rfl, nofun, by decide, nofun, rfl, by decide, ⟨rfl, rfl, rfl, hkeys⟩,
      .disabled rfl rfl⟩
  · have hform := hb.keys.form
    generalize b.keys.layout = l at hform
    cases hform with
    | grid inputs => cases inputs
    | matrix direct => cases direct

end Board

end BoardWiring
