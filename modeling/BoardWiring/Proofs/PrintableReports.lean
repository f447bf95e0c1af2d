import BoardWiring.Proofs.Attribution
import BoardWiring.Proofs.DescriptionShape
import BoardWiring.Proofs.PrintableTexts

/-!
# Reports that stay on one line

Whatever a description holds, the line that reports what is wrong with it is one line: every step of
the compiler fails, if it reports anything, with an error whose message is legible.

* `Failure.IsLegible` is the condition on the fault of a step;
* `Board.legible_ofValue` and `Board.legible_generate` carry it through the two halves of the
  compiler, section by section and step by step;
* `Board.reports_printable` says it of the reports.
-/

namespace BoardWiring

open Outcome

namespace Failure

/-- If the fault is reported, its message is legible. -/
def IsLegible (f : Failure) : Prop := ∀ e, f = .config e → e.IsLegible

@[simp] theorem isLegible_config_iff {e : ConfigError} :
    (Failure.config e).IsLegible ↔ e.IsLegible :=
  ⟨fun h => h e rfl, by rintro h d ⟨⟩; exact h⟩

theorem isLegible_blamed {e : ConfigError} (h : e.IsLegible) (p : Pin) :
    (p.blamed e).IsLegible := by
  unfold Pin.blamed
  split_ifs
  · exact isLegible_config_iff.2 h
  · nofun

@[simp] theorem isLegible_longNumber (digits : Nat) : (longNumber digits).IsLegible := nofun

@[simp] theorem isLegible_longInteger : longInteger.IsLegible := nofun

end Failure

@[simp] theorem Value.legible_written (v : Value) : FailsOnly Failure.IsLegible v.written := by
  simp [Value.written]

/-! ### Reading a description -/

namespace Section

open Text

variable {v : Value} {name context : String} {absent : Bool}

@[simp] theorem legible_required (hname : IsLegible name) (hcontext : IsLegible context) :
    FailsOnly ConfigError.IsLegible (required v name context) := by
  have hmessage : IsLegible ("Missing required field '" ++ name ++ "' in " ++ context ++
      " section") := by
    simp only [isLegible_append, hname, hcontext, and_true]
    decide
  simp [required, hmessage]

@[simp] theorem legible_requiredText (hname : IsLegible name) (hcontext : IsLegible context) :
    FailsOnly Failure.IsLegible (requiredText v name context) := by
  simp [requiredText, hname, hcontext]

@[simp] theorem legible_flag (hname : IsLegible name) (hcontext : IsLegible context) :
    FailsOnly ConfigError.IsLegible (flag v name context absent) := by
  unfold flag
  split
  · exact failsOnly_ok _
  · exact failsOnly_ok _
  · simp only [failsOnly_error_iff, ConfigError.isLegible_invalid, isLegible_append, hname,
      hcontext, and_true]
    decide

@[simp] theorem legible_pinList (hcontext : IsLegible context) :
    FailsOnly ConfigError.IsLegible (pinList v context) := by
  unfold pinList
  split
  · exact failsOnly_ok _
  · simp only [failsOnly_error_iff, ConfigError.isLegible_invalid, isLegible_append, hcontext,
      and_true]
    decide

end Section

namespace KeyWiring

open Section Text

variable {v : Value}

@[simp] theorem legible_gridOf : FailsOnly ConfigError.IsLegible (gridOf v) := by
  unfold gridOf
  split
  · refine failsOnly_mapM fun r _ => legible_pinList ?_
    simp only [isLegible_append, Digits.isLegible_decimal, and_true]
    decide
  · exact failsOnly_error_iff.2 (ConfigError.isLegible_invalid.2 (by decide))

@[simp] theorem legible_layoutOf : FailsOnly ConfigError.IsLegible (layoutOf v) := by
  have hboth : IsLegible
      "matrix section must use either input_pins/output_pins or direct_pins, not both" := by
    decide
  simp (disch := decide) [layoutOf, hboth]

@[simp] theorem legible_ofValue : FailsOnly ConfigError.IsLegible (ofValue v) := by
  have hmapping : IsLegible "matrix section must be a mapping" := by decide
  simp (disch := decide) [ofValue, hmapping]

end KeyWiring

namespace BusSettings

open Section Text

variable {v : Value}

@[simp] theorem legible_frequencyOf : FailsOnly ConfigError.IsLegible (frequencyOf v) := by
  unfold frequencyOf
  split
  · exact failsOnly_ok _
  · exact failsOnly_ok _
  · exact failsOnly_error_iff.2 (ConfigError.isLegible_validation.2 (by decide))

@[simp] theorem legible_addressOf : FailsOnly ConfigError.IsLegible (addressOf v) := by
  unfold addressOf
  split
  · exact failsOnly_ok _
  · exact failsOnly_error_iff.2 (ConfigError.isLegible_validation.2 (by decide))

@[simp] theorem legible_ofValue : FailsOnly Failure.IsLegible (ofValue v) := by
  have hmapping : IsLegible "i2c section must be a mapping" := by decide
  simp (disch := decide) [ofValue, enabledOf, hmapping]

theorem frequency_of_ofValue {s : BusSettings} (h : ofValue v = .ok s) :
    s.frequency = .null ∨ ∃ f, s.frequency = .int f := by
  unfold ofValue at h
  split_ifs at h
  · cases h
    exact Or.inl rfl
  · obtain ⟨enabled, -, h⟩ := bind_eq_ok_iff.1 h
    cases enabled with
    | false =>
      cases h
      exact Or.inl rfl
    | true =>
      obtain ⟨frequency, hfrequency, h⟩ := bind_eq_ok_iff.1 h
      obtain ⟨hform, rfl⟩ := frequencyOf_eq_ok_iff.1 (Failure.ofConfig_eq_ok_iff.1 hfrequency)
      simp only [bind_eq_ok_iff, pure_eq_ok, Except.ok.injEq] at h
      obtain ⟨address, -, sda, -, scl, -, expander, -, rfl⟩ := h
      exact hform

end BusSettings

namespace Board

open Section Text

variable {v : Value}

@[simp] theorem legible_familyOf {chip : LooseText} :
    FailsOnly ConfigError.IsLegible (familyOf chip) := by
  unfold familyOf
  split
  · exact failsOnly_ok _
  · refine failsOnly_error_iff.2 (ConfigError.isLegible_validation.2 (isLegible_append.2 ⟨?_, ?_⟩))
    · decide
    · exact Quoted.isLegible_loose chip

/-- A value that is no description is refused in one line. -/
theorem legible_ofValue : FailsOnly Failure.IsLegible (ofValue v) := by
  have hroot : IsLegible "YAML root must be a mapping" := by decide
  have hboard : IsLegible "board section must be a mapping" := by decide
  simp (disch := decide) [ofValue, hroot, hboard]

theorem frequency_of_ofValue {b : Board} (h : ofValue v = .ok b) :
    b.bus.frequency = .null ∨ ∃ f, b.bus.frequency = .int f := by
  unfold ofValue at h
  split_ifs at h
  obtain ⟨about, -, h⟩ := bind_eq_ok_iff.1 h
  split_ifs at h
  simp only [bind_eq_ok_iff, pure_eq_ok, Except.ok.injEq] at h
  obtain ⟨name, -, chip, -, family, -, section_, -, keys, -, bus, hbus, rfl⟩ := h
  exact BusSettings.frequency_of_ofValue hbus

end Board

/-! ### Compiling a board -/

namespace Pin

variable {family : Family} {absent : Bool} {raw : String} {v : Value}

@[simp] theorem legible_readExpander : FailsOnly Failure.IsLegible (readExpander raw) := by
  unfold readExpander
  split
  · simp
  · split_ifs
    · split <;> simp
    · split <;> simp
    · simp

@[simp] theorem legible_readText : FailsOnly Failure.IsLegible (readText family absent raw) := by
  unfold readText
  split_ifs
  · simp
  · simp
  · refine failsOnly_bind_iff.2 ⟨legible_readExpander, fun p _ => ?_⟩
    rw [ExpanderPin.number]
    split_ifs
    · simp
    · simp [Failure.isLegible_blamed]
  · split <;> simp

@[simp] theorem legible_read : FailsOnly Failure.IsLegible (read family absent v) := by
  unfold read
  split <;> simp

@[simp] theorem legible_readOnChip : FailsOnly Failure.IsLegible (readOnChip family v) := by
  refine failsOnly_bind_iff.2 ⟨legible_read, fun p _ => ?_⟩
  cases p <;> simp

end Pin

namespace Bus

variable {family : Family} {s : BusSettings} {shared : Bool}

theorem isLegible_shown_int (f : Int) : Text.IsLegible (Value.int f).shown := by
  simp [Value.shown, Value.quoted, Value.quotedIn]

/-- A frequency that is refused is an integer, and so are those that are accepted. -/
theorem legible_frequency {v : Value} (hv : v = .null ∨ ∃ f, v = .int f) :
    FailsOnly ConfigError.IsLegible (frequency family v) := by
  obtain rfl | ⟨f, rfl⟩ := hv
  · exact failsOnly_ok _
  · have hinvalid : ∀ accepted : List Int, (ConfigError.invalidFrequency (.int f) (some family)
        (accepted.map Value.int)).IsLegible := by
      intro accepted text htext
      rw [ConfigError.unquoted, ← List.map_cons, List.map_map] at htext
      obtain ⟨g, -, rfl⟩ := List.mem_map.1 htext
      exact isLegible_shown_int g
    simp only [frequency, failsOnly_ite_iff, failsOnly_ok, failsOnly_error_iff, hinvalid,
      implies_true, and_true, true_and]
    exact fun _ _ => hinvalid []

theorem legible_plan (hs : s.frequency = .null ∨ ∃ f, s.frequency = .int f) :
    FailsOnly Failure.IsLegible (plan family s) := by
  have hsda : Text.IsLegible "I2C SDA pin not set" := by decide
  have hscl : Text.IsLegible "I2C SCL pin not set" := by decide
  simp only [plan, failsOnly_ite_iff, failsOnly_bind_iff, failsOnly_error_iff,
    Failure.isLegible_config_iff, ConfigError.isLegible_invalid, hsda, hscl,
    Pin.legible_readOnChip, implies_true, true_and]
  intro _ _ _ _ _ _
  cases hf : frequency family s.frequency with
  | ok f => simp
  | error e =>
    have he : e.IsLegible := legible_frequency hs e hf
    by_cases hw : e.raw.isWritable = true <;> simp [hw, he]

theorem legible_build (hs : s.frequency = .null ∨ ∃ f, s.frequency = .int f) :
    FailsOnly Failure.IsLegible (build family s shared) := by
  have hsupported : FailsOnly Failure.IsLegible (buildSupported family s shared) := by
    refine failsOnly_bind_iff.2 ⟨legible_plan hs, fun p _ =>
      failsOnly_bind_iff.2 ⟨by simp [checkWritable], fun _ _ => ?_⟩⟩
    cases haddress : ExpanderPin.isAddress s.address with
    | true => simp [expander_eq_ok haddress]
    | false => simp [expander_eq_error haddress]
  simp [build, hsupported]

end Bus

namespace Emit

variable {family : Family} {interrupt : Bool} {l : Layout Pin} {p : Pin} {role : Role}
  {e : ConfigError}

theorem isLegible_of_roleFault? (h : roleFault? family p role = some e) : e.IsLegible := by
  cases role with
  | output => cases h
  | input => cases h
  | interruptInput =>
    cases p with
    | absent => cases h
    | expander x =>
      cases h
      exact ConfigError.isLegible_expanderInterrupt x
    | mcu name number =>
      simp only [roleFault?, capabilityFault?] at h
      split_ifs at h
      cases h
      exact ConfigError.isLegible_noInterruptLine name number

theorem isLegible_of_stopFault? {f : Failure} (h : stopFault? family p role = some f) :
    f.IsLegible := by
  unfold stopFault? at h
  split_ifs at h
  · obtain ⟨e, he, rfl⟩ := Option.map_eq_some_iff.1 h
    refine Failure.isLegible_config_iff.2 ?_
    cases p with
    | mcu => cases he
    | absent =>
      cases he
      exact ConfigError.isLegible_absentInitialised
    | expander x =>
      simp only [pinFault?] at he
      split_ifs at he
      cases he
      exact ConfigError.isLegible_expanderIndex x
  · cases h
    exact Failure.isLegible_longInteger

theorem isLegible_of_repeatFault? {ps : List Pin} {f : Failure} (h : repeatFault? ps = some f) :
    f.IsLegible := by
  obtain ⟨p, -, rfl⟩ := Option.map_eq_some_iff.1 h
  exact Failure.isLegible_blamed (ConfigError.isLegible_repeated p) p

theorem isLegible_of_layoutFault? {f : Failure} (h : layoutFault? family interrupt l = some f) :
    f.IsLegible := by
  have hstop : ∀ {ps : List Pin} {role : Role},
      (ps.findSome? fun p => stopFault? family p role) = some f → f.IsLegible := by
    intro ps role hps
    obtain ⟨p, -, hp⟩ := List.exists_of_findSome?_eq_some hps
    exact isLegible_of_stopFault? hp
  cases l with
  | matrix rows cols =>
    simp only [layoutFault?, Option.or_eq_some_iff] at h
    rcases h with h | ⟨-, h | ⟨-, h | ⟨-, h⟩⟩⟩
    · exact isLegible_of_repeatFault? h
    · obtain ⟨e, he, rfl⟩ := Option.map_eq_some_iff.1 h
      unfold absentFault? at he
      split_ifs at he
      cases he
      exact Failure.isLegible_config_iff.2 ConfigError.isLegible_absentOutsideGrid
    · exact hstop h
    · exact hstop h
  | grid rows =>
    simp only [layoutFault?, Option.or_eq_some_iff] at h
    rcases h with h | ⟨-, h | ⟨-, h⟩⟩
    · obtain ⟨e, he, rfl⟩ := Option.map_eq_some_iff.1 h
      obtain ⟨r, -, rfl⟩ := Option.map_eq_some_iff.1 he
      exact Failure.isLegible_config_iff.2 (ConfigError.isLegible_raggedRow _ _ _)
    · exact isLegible_of_repeatFault? h
    · obtain ⟨p, -, hp⟩ := List.exists_of_findSome?_eq_some h
      unfold placeFault? at hp
      split_ifs at hp
      exact isLegible_of_stopFault? hp

theorem isLegible_of_mem_diagnostics {activeLow : Bool}
    (h : e ∈ (statements family interrupt activeLow l).diagnostics) : e.IsLegible := by
  rw [diagnostics_statements, List.mem_flatMap] at h
  obtain ⟨p, -, hp⟩ := h
  exact isLegible_of_roleFault? (Option.mem_toList.1 hp)

end Emit

namespace Board

variable {b : Board} {v : Value} {source : String} {e : ConfigError}

theorem legible_checkExpanders {bus : Fragment} {ps : List Pin} :
    FailsOnly ConfigError.IsLegible (checkExpanders bus ps) := by
  unfold checkExpanders
  split
  · split_ifs <;> simp
  · exact failsOnly_ok _

/-- **A board is refused in one line.** -/
theorem legible_generate (hb : b.bus.frequency = .null ∨ ∃ f, b.bus.frequency = .int f) :
    FailsOnly Failure.IsLegible (b.generate source) := by
  refine failsOnly_bind_iff.2 ⟨Layout.failsOnly_read fun _ _ => Pin.legible_read, fun layout _ =>
    failsOnly_bind_iff.2 ⟨Bus.legible_build hb, fun bus hbus => ?_⟩⟩
  have hbuilt := Bus.build_eq_ok_iff.1 hbus
  simp only [failsOnly_bind_iff, failsOnly_ofConfig_iff, Failure.ofConfig_eq_ok_iff,
    Failure.isLegible_config_iff, hbuilt.claimedPins_eq, failsOnly_ok, true_and, pure_eq_ok,
    Emit.layout_eq_ofFault?, Emit.checkUnique_eq, failsOnly_ofFault?_iff, ofFault?_eq_ok_iff]
  refine ⟨legible_checkExpanders, fun _ _ _ _ => ⟨fun e => Emit.isLegible_of_repeatFault?,
    fun _ _ => ⟨fun e => Emit.isLegible_of_layoutFault?, fun pins hpins =>
      ⟨fun e he => ?_, fun _ _ => trivial⟩⟩⟩⟩
  -- The bus carries no errors, so that they are those which the statements for the keys carry.
  obtain ⟨f, hf, hd⟩ := mem_of_check he
  rcases List.mem_cons.1 hf with rfl | hf
  · simp [hbuilt.diagnostics_eq] at hd
  · rw [List.mem_singleton.1 hf, ← hpins.2] at hd
    exact Emit.isLegible_of_mem_diagnostics hd

/-- **Reports stay on one line.**  Whatever value is read as a description, and whatever its texts
hold: if it is refused with an error, or if the board that it describes is, then all characters of
the report are printable, and none of them is a control character or a separator of lines. -/
theorem reports_printable (v : Value) (source : String) (e : ConfigError)
    (h : ofValue v = .error (.config e) ∨
      ∃ b, ofValue v = .ok b ∧ b.generate source = .error (.config e)) :
    ∀ c ∈ e.report.toList, Text.isPrintable c = true ∧ Text.isBreak c = false := by
  have he : e.IsLegible := by
    obtain h | ⟨b, hb, h⟩ := h
    · exact legible_ofValue _ h e rfl
    · exact legible_generate (frequency_of_ofValue hb) _ h e rfl
  intro c hc
  have hprintable := he.report c hc
  exact ⟨hprintable, Text.not_isBreak_of_isPrintable hprintable⟩

/-- A description with a pin whose name goes over three lines. -/
def torn : Value :=
  .mapping [
    (.text "board", .mapping [(.text "name", .text "torn"), (.text "chip", .text "RP2040")]),
    (.text "matrix", .mapping [
      (.text "input_pins", .list [.text "PIN\n_\u20281"]), (.text "output_pins", .list [])])]

/-- The board of that description. -/
def tornBoard : Board where
  name := "torn"
  chip := "RP2040"
  family := .rp2040
  keys := ⟨.matrix [.text "PIN\n_\u20281"] [], false, false⟩
  bus := .none

theorem reports_printable_torn :
    ofValue torn = .ok tornBoard ∧ ∃ e, tornBoard.generate "" = .error (.config e) ∧
      ∀ c ∈ e.report.toList, Text.isPrintable c = true ∧ Text.isBreak c = false := by
  have hread : ofValue torn = .ok tornBoard := by rfl
  have hgenerate : tornBoard.generate "" =
      .error (.config (.unknownPin "PIN\n_\u20281" (some .rp2040))) := by rfl
  exact ⟨hread, _, hgenerate, reports_printable torn "" _ (.inr ⟨_, hread, hgenerate⟩)⟩

end Board

end BoardWiring
