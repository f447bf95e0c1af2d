import BoardWiring.Proofs.DescriptionShape

/-!
# Null fields

A field that is null counts as missing: setting it to null gives the same result as leaving it
out, or the same error.  The address of the expander is the one field of which this is not true.

* `Value.nulled` and `Value.without` are the two ways to have no value in a field, and
  `Value.sameFields_nulled` says that the readers of sections see both alike;
* `Board.null_eq_missing` says it of every field of every section, and when it fails.
-/

namespace BoardWiring

open Outcome

namespace Value

variable {v w : Value} {name other : String} {f : List (Value × Value) → List (Value × Value)}

/-! ### Changing entries -/

theorem sameKey_text_iff {k : Value} {s : String} : sameKey k (.text s) = true ↔ k = .text s := by
  cases k <;> simp [sameKey, asInt?, alike]

theorem find?_enter_self {key x : Value} (es : List (Value × Value))
    (hk : sameKey key key = true) : find? key (enter key x es) = some x := by
  induction es with
  | nil => simp [enter, find?, hk]
  | cons e es ih =>
    rw [enter]
    split_ifs with he
    · simp [find?, he]
    · simp [find?, he, ih]

theorem find?_enter_of_ne {x : Value} (h : other ≠ name) (es : List (Value × Value)) :
    find? (.text other) (enter (.text name) x es) = find? (.text other) es := by
  induction es with
  | nil => simp [enter, find?, sameKey_text_iff, h.symm]
  | cons e es ih =>
    rw [enter]
    split_ifs with he
    · simp [find?, sameKey_text_iff.1 he, sameKey_text_iff, h.symm]
    · simp [find?, ih]

/-- Entries without those of a key. -/
def drop (key : Value) (es : List (Value × Value)) : List (Value × Value) :=
  es.filter fun e => !sameKey e.1 key

theorem find?_drop_self (key : Value) (es : List (Value × Value)) :
    find? key (drop key es) = none := by
  induction es with
  | nil => rfl
  | cons e es ih =>
    rw [drop, List.filter_cons]
    cases he : sameKey e.1 key with
    | true => exact ih
    | false => simpa [find?, he, drop] using ih

theorem find?_drop_of_ne (h : other ≠ name) (es : List (Value × Value)) :
    find? (.text other) (drop (.text name) es) = find? (.text other) es := by
  induction es with
  | nil => rfl
  | cons e es ih =>
    rw [drop, List.filter_cons]
    cases he : sameKey e.1 (.text name) with
    | true =>
      simp only [find?, sameKey_text_iff.1 he, sameKey_text_iff, text.injEq, h.symm, if_false]
      exact ih
    | false =>
      simp only [Bool.not_false, if_true, find?]
      exact congrArg _ ih

/-! ### Changing fields -/

/-- The mapping with its entries changed; another value is left as it is. -/
def change (f : List (Value × Value) → List (Value × Value)) (v : Value) : Value :=
  match v.body with
  | .mapping es => .mapping (f es)
  | _ => v

/-- The mapping with a field set to a value. -/
def assign (v : Value) (name : String) (x : Value) : Value := v.change (enter (.text name) x)

/-- The mapping with a field set to null. -/
def nulled (v : Value) (name : String) : Value := v.assign name .null

/-- The mapping with a field left out. -/
def without (v : Value) (name : String) : Value := v.change (drop (.text name))

theorem isMapping_iff : v.isMapping = true ↔ ∃ es, v.body = .mapping es := by
  cases v with
  | cyclic n b =>
    cases b with
    | again m =>
      by_cases h : m = n
      · simp [isMapping, body, close, h]
      · simp [isMapping, body, close, h]
    | cyclic m b =>
      by_cases h : m = n
      · simp [isMapping, body, close, h]
      · simp [isMapping, body, close, h]
    | _ => simp [isMapping, body, close]
  | _ => simp [isMapping, body]

theorem change_cases (f : List (Value × Value) → List (Value × Value)) (v : Value) :
    (∃ es, v.body = .mapping es ∧ v.isMapping = true ∧ v.change f = .mapping (f es)) ∨
      v.isMapping = false ∧ (∀ name, v.field? name = none) ∧ v.change f = v := by
  cases h : v.isMapping with
  | true =>
    obtain ⟨es, hes⟩ := isMapping_iff.1 h
    exact .inl ⟨es, hes, rfl, by simp [change, hes]⟩
  | false =>
    have hbody : ∀ es, v.body ≠ .mapping es := fun es hes => by
      simp [isMapping_iff.2 ⟨es, hes⟩] at h
    refine .inr ⟨rfl, fun name => ?_, ?_⟩
    · unfold field?
      split
      · exact absurd ‹_› (hbody _)
      · rfl
    · unfold change
      split
      · exact absurd ‹_› (hbody _)
      · rfl

@[simp] theorem isMapping_change : (v.change f).isMapping = v.isMapping := by
  rcases change_cases f v with ⟨es, -, hmapping, heq⟩ | ⟨-, -, heq⟩
  · rw [heq, hmapping, isMapping]
  · rw [heq]

@[simp] theorem isNull_change : (v.change f).isNull = v.isNull := by
  rcases change_cases f v with ⟨es, -, hmapping, heq⟩ | ⟨-, -, heq⟩
  · rw [heq, Section.isNull_eq_false_iff.2 (Section.ne_null_of_isMapping hmapping)]
    rfl
  · rw [heq]

theorem field?_change_eq (h : ∀ es, find? (.text name) (f es) = find? (.text name) es) :
    (v.change f).field? name = v.field? name := by
  rcases change_cases f v with ⟨es, hes, -, heq⟩ | ⟨-, -, heq⟩
  · rw [heq, field?, field?, hes]
    exact h es
  · rw [heq]

theorem field?_change_self {x : Option Value} (hv : v.isMapping = true)
    (h : ∀ es, find? (.text name) (f es) = x) : (v.change f).field? name = x := by
  rcases change_cases f v with ⟨es, -, -, heq⟩ | ⟨hno, -, -⟩
  · rw [heq]
    exact h es
  · simp [hv] at hno

theorem field_change_self (h : ∀ es, orNull (find? (.text name) (f es)) = .null) :
    Section.field (v.change f) name = .null := by
  rcases change_cases f v with ⟨es, -, -, heq⟩ | ⟨-, hnone, heq⟩
  · rw [heq]
    exact h es
  · rw [heq, Section.field, hnone, orNull]

theorem field?_assign_self (h : v.isMapping = true) (x : Value) :
    (v.assign name x).field? name = some x :=
  field?_change_self h fun es => find?_enter_self es (sameKey_text_iff.2 rfl)

theorem field_assign_self (h : v.isMapping = true) (x : Value) :
    Section.field (v.assign name x) name = x := by
  rw [Section.field, field?_assign_self h, orNull]

theorem field_assign_of_ne (h : other ≠ name) (x : Value) :
    Section.field (v.assign name x) other = Section.field v other := by
  rw [Section.field, Section.field, assign, field?_change_eq (find?_enter_of_ne h)]

theorem field?_without_self (v : Value) (name : String) : (v.without name).field? name = none := by
  rcases change_cases (drop (.text name)) v with ⟨es, -, -, heq⟩ | ⟨-, hnone, heq⟩
  · rw [without, heq]
    exact find?_drop_self (.text name) es
  · rw [without, heq, hnone]

/-! ### What the readers of sections see -/

/-- What the readers of sections see alike: mappings with the same values in the same fields, null
counting as missing. -/
structure SameFields (v w : Value) : Prop where
  isMapping : v.isMapping = w.isMapping
  isNull : v.isNull = w.isNull
  field (name : String) : Section.field v name = Section.field w name

/-- **Setting a field to null looks like leaving it out.** -/
theorem sameFields_nulled (v : Value) (name : String) :
    SameFields (v.nulled name) (v.without name) := by
  refine ⟨by simp [nulled, assign, without], by simp [nulled, assign, without], fun other => ?_⟩
  by_cases h : other = name
  · subst h
    rw [nulled, assign, without, field_change_self fun es => ?_, field_change_self fun es => ?_]
    · rw [find?_drop_self, orNull]
    · rw [find?_enter_self es (sameKey_text_iff.2 rfl), orNull]
  · rw [Section.field, Section.field, nulled, assign, without,
      field?_change_eq (find?_enter_of_ne h), field?_change_eq (find?_drop_of_ne h)]

end Value

namespace KeyWiring

theorem ofValue_congr {v w : Value} (h : v.SameFields w) : ofValue v = ofValue w := by
  simp only [ofValue, layoutOf, Section.flag, Section.required, h.isMapping, h.field]

end KeyWiring

namespace BusSettings

open Section

variable {v w : Value}

theorem ofValue_congr (h : v.SameFields w)
    (haddress : v.field? "expander_address" = w.field? "expander_address") :
    ofValue v = ofValue w := by
  simp only [ofValue, enabledOf, frequencyOf, addressOf, flag, requiredText, required,
    h.isMapping, h.isNull, h.field, haddress]

/-- The reader of the section comes to the address of the expander: the bus is enabled, and its
frequency is one. -/
structure ReachesAddress (v : Value) : Prop where
  mapping : v.isMapping = true
  on : truth? true (field v "enabled") = some true
  frequency : field v "frequency_khz" = .null ∨ ∃ f, field v "frequency_khz" = .int f

/-- The fault of an address that is null. -/
def nullAddress : ConfigError := .validation "'i2c.expander_address' must be an integer" .null

theorem reachesAddress_nulled :
    ReachesAddress (v.nulled "expander_address") ↔ ReachesAddress v := by
  have hon : field (v.nulled "expander_address") "enabled" = field v "enabled" :=
    Value.field_assign_of_ne (by decide) .null
  have hfrequency : field (v.nulled "expander_address") "frequency_khz" =
      field v "frequency_khz" := Value.field_assign_of_ne (by decide) .null
  have hmapping : (v.nulled "expander_address").isMapping = v.isMapping := Value.isMapping_change
  constructor
  · rintro ⟨h1, h2, h3⟩
    exact ⟨hmapping ▸ h1, hon ▸ h2, hfrequency ▸ h3⟩
  · rintro ⟨h1, h2, h3⟩
    exact ⟨hmapping ▸ h1, hon ▸ h2, hfrequency ▸ h3⟩

theorem ofValue_of_reaches (hv : ReachesAddress v)
    (haddress : v.field? "expander_address" = some .null) :
    ofValue v = .error (.config nullAddress) := by
  have hflag : flag v "enabled" "i2c" true = .ok true := flag_eq_ok_iff.2 hv.on
  have hfrequency : frequencyOf v = .ok (field v "frequency_khz") :=
    frequencyOf_eq_ok_iff.2 ⟨hv.frequency, rfl⟩
  have hnull := isNull_eq_false_iff.2 (ne_null_of_isMapping hv.mapping)
  simp [ofValue, hnull, hv.mapping, hflag, enabledOf, hfrequency, addressOf, haddress, nullAddress,
    Failure.ofConfig]

/-- The fault is another one than that of an address that is null. -/
def SparesAddress (f : Failure) : Prop := f ≠ .config nullAddress

theorem sparesAddress_invalid {message : String}
    (h : message ≠ "'i2c.expander_address' must be an integer") :
    SparesAddress (.config (.invalid message)) := by
  simpa [SparesAddress, nullAddress, ConfigError.invalid] using h

theorem failsOnly_flag_spares {name : String} {absent : Bool}
    (h : "'" ++ "i2c" ++ "." ++ name ++ "' must be true or false" ≠
      "'i2c.expander_address' must be an integer") :
    FailsOnly (fun e => SparesAddress (.config e)) (flag v name "i2c" absent) := by
  unfold flag
  split
  · simp
  · simp
  · exact failsOnly_error_iff.2 (sparesAddress_invalid h)

theorem failsOnly_requiredText_spares {name : String}
    (h : "Missing required field '" ++ name ++ "' in " ++ "i2c" ++ " section" ≠
      "'i2c.expander_address' must be an integer") :
    FailsOnly SparesAddress (requiredText v name "i2c") := by
  have hlong : SparesAddress .longInteger := nofun
  simp [requiredText, required, Value.written, sparesAddress_invalid h, hlong]

theorem failsOnly_frequencyOf_spares :
    FailsOnly (fun e => SparesAddress (.config e)) (frequencyOf v) := by
  unfold frequencyOf
  split
  · simp
  · simp
  · simp [SparesAddress, nullAddress]

/-- An address that is missing is not what an error blames. -/
theorem ofValue_ne_of_missing (haddress : v.field? "expander_address" = Option.none) :
    ofValue v ≠ .error (.config nullAddress) := by
  have haddress' : addressOf v = .ok ExpanderPin.minAddress :=
    addressOf_eq_ok_iff.2 (.inl ⟨haddress, rfl⟩)
  -- All other checks name another field in their messages, or none.
  have hform : SparesAddress (.config (.invalid "i2c section must be a mapping")) :=
    sparesAddress_invalid (by decide)
  have hon : FailsOnly (fun e => SparesAddress (.config e)) (flag v "enabled" "i2c" true) :=
    failsOnly_flag_spares (by decide)
  have hexpander : FailsOnly (fun e => SparesAddress (.config e)) (flag v "expander" "i2c" false) :=
    failsOnly_flag_spares (by decide)
  have hsda : FailsOnly SparesAddress (requiredText v "sda" "i2c") :=
    failsOnly_requiredText_spares (by decide)
  have hscl : FailsOnly SparesAddress (requiredText v "scl" "i2c") :=
    failsOnly_requiredText_spares (by decide)
  have hfails : FailsOnly SparesAddress (ofValue v) := by
    simp only [ofValue, enabledOf, haddress', failsOnly_ite_iff, failsOnly_bind_iff, failsOnly_ok,
      failsOnly_error_iff, failsOnly_ofConfig_iff, failsOnly_frequencyOf_spares, hform, hon,
      hexpander, hsda, hscl, pure_eq_ok, implies_true, and_true]
  exact fun h => hfails _ h rfl

theorem ofValue_congr_of_not_reaches (h : v.SameFields w) (hv : ¬ReachesAddress v) :
    ofValue v = ofValue w := by
  have hflag : flag w "enabled" "i2c" true = flag v "enabled" "i2c" true := by
    rw [flag, flag, h.field]
  have hfrequency : frequencyOf w = frequencyOf v := by
    rw [frequencyOf, frequencyOf, h.field]
  simp only [ofValue, enabledOf, hflag, hfrequency, ← h.isNull, ← h.isMapping]
  -- The reader stops at the first check that fails, before it comes to the address.
  cases hmapping : v.isMapping with
  | false => simp
  | true =>
    cases hon : flag v "enabled" "i2c" true with
    | error e => simp [Failure.ofConfig]
    | ok enabled =>
      cases enabled with
      | false => simp [Failure.ofConfig]
      | true =>
        cases hf : frequencyOf v with
        | error e => simp [Failure.ofConfig]
        | ok f =>
          exact absurd ⟨hmapping, flag_eq_ok_iff.1 hon, (frequencyOf_eq_ok_iff.1 hf).1⟩ hv

end BusSettings

namespace Board

open Section

theorem ofValue_congr {v w : Value} (hroot : v.SameFields w) : ofValue v = ofValue w := by
  simp only [ofValue, Section.requiredText, Section.required, hroot.isMapping, hroot.field]

/-- The section on the board is seen by its fields alone. -/
theorem ofValue_assign_congr (v : Value) {x y : Value} (h : x.SameFields y) :
    ofValue (v.assign "board" x) = ofValue (v.assign "board" y) := by
  cases hv : v.isMapping with
  | false => simp [ofValue, Value.assign, hv]
  | true =>
    -- Null is not looked into, so that there the two values have to be the same.
    by_cases hnull : x = .null
    · have hy : y.isNull = true := h.isNull ▸ isNull_iff.2 hnull
      rw [hnull, isNull_iff.1 hy]
    · have hynull : y ≠ .null := isNull_eq_false_iff.1 (h.isNull ▸ isNull_eq_false_iff.2 hnull)
      have hx : required (v.assign "board" x) "board" "root" = .ok x :=
        required_eq_ok_iff.2 ⟨hnull, Value.field_assign_self hv x⟩
      have hy : required (v.assign "board" y) "board" "root" = .ok y :=
        required_eq_ok_iff.2 ⟨hynull, Value.field_assign_self hv y⟩
      have hother {name : String} (hne : name ≠ "board") :
          field (v.assign "board" x) name = field (v.assign "board" y) name := by
        rw [Value.field_assign_of_ne hne, Value.field_assign_of_ne hne]
      have hmatrix : required (v.assign "board" x) "matrix" "root" =
          required (v.assign "board" y) "matrix" "root" := by
        rw [required, required, hother (by decide)]
      have htext (name : String) : requiredText x name "board" = requiredText y name "board" := by
        rw [requiredText, requiredText, required, required, h.field]
      have hroot : (v.assign "board" x).isMapping = (v.assign "board" y).isMapping := by
        rw [Value.assign, Value.assign, Value.isMapping_change, Value.isMapping_change]
      have hi2c := hother (show "i2c" ≠ "board" by decide)
      simp only [ofValue, hx, hy, Failure.ofConfig, ok_bind, hroot, h.isMapping, htext, hmatrix,
        hi2c]

/-- **A field that is null counts as missing** in the section on the keys, in the section on the
bus, in the description as a whole and in its section on the board: the result is the same, or the
error.  The address of the expander is the one exception, wherever it is read. -/
theorem null_eq_missing (v : Value) :
    (∀ name, KeyWiring.ofValue (v.nulled name) = KeyWiring.ofValue (v.without name)) ∧
    (∀ name, name ≠ "expander_address" →
      BusSettings.ofValue (v.nulled name) = BusSettings.ofValue (v.without name)) ∧
    (BusSettings.ofValue (v.nulled "expander_address") =
      BusSettings.ofValue (v.without "expander_address") ↔ ¬BusSettings.ReachesAddress v) ∧
    (∀ name, ofValue (v.nulled name) = ofValue (v.without name)) ∧
    ∀ (about : Value) (name : String), ofValue (v.assign "board" (about.nulled name)) =
      ofValue (v.assign "board" (about.without name)) := by
  refine ⟨fun name => KeyWiring.ofValue_congr (Value.sameFields_nulled v name), fun name hne => ?_,
    ?_, fun name => ofValue_congr (Value.sameFields_nulled v name), fun about name =>
      ofValue_assign_congr v (Value.sameFields_nulled about name)⟩
  · refine BusSettings.ofValue_congr (Value.sameFields_nulled v name) ?_
    rw [Value.nulled, Value.assign, Value.without,
      Value.field?_change_eq (Value.find?_enter_of_ne hne.symm),
      Value.field?_change_eq (Value.find?_drop_of_ne hne.symm)]
  · constructor
    · -- Where the address is read, null is an error that a missing address cannot give.
      intro heq hreach
      have hnulled := BusSettings.ofValue_of_reaches
        (BusSettings.reachesAddress_nulled.2 hreach) (Value.field?_assign_self hreach.mapping .null)
      have hmissing := BusSettings.ofValue_ne_of_missing
        (Value.field?_without_self v "expander_address")
      exact hmissing (heq ▸ hnulled)
    · intro hreach
      exact BusSettings.ofValue_congr_of_not_reaches (Value.sameFields_nulled v _)
        (mt BusSettings.reachesAddress_nulled.1 hreach)

/-- A bus whose expander has the address that a missing one stands for. -/
def hub : Value :=
  .mapping [(.text "sda", .text "PB7"), (.text "scl", .text "PB6"),
    (.text "frequency_khz", .int 400), (.text "expander_address", .int 0x20)]

theorem null_eq_missing_hub :
    BusSettings.ofValue (hub.nulled "frequency_khz") =
        BusSettings.ofValue (hub.without "frequency_khz") ∧
      BusSettings.ofValue (hub.without "frequency_khz") =
        .ok ⟨true, .text "PB7", .text "PB6", .null, false, 0x20⟩ :=
  ⟨(null_eq_missing hub).2.1 "frequency_khz" (by decide), rfl⟩

theorem null_ne_missing_hub :
    BusSettings.ofValue (hub.nulled "expander_address") ≠
      BusSettings.ofValue (hub.without "expander_address") := by
  have hnulled : BusSettings.ofValue (hub.nulled "expander_address") =
      .error (.config BusSettings.nullAddress) := rfl
  have hwithout : BusSettings.ofValue (hub.without "expander_address") =
      .ok ⟨true, .text "PB7", .text "PB6", .int 400, false, 0x20⟩ := rfl
  rw [hnulled, hwithout]
  nofun

end Board

end BoardWiring
