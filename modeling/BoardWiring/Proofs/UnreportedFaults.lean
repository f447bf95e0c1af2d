import BoardWiring.Proofs.Attribution
import BoardWiring.Proofs.CommandEffects
import BoardWiring.Proofs.NullFields
import BoardWiring.Proofs.Verdict

/-!
# Faults that are not reported

A board that is wrong is refused with a configuration error, except for a few causes: a scalar of
the document that cannot be built, an integer that is too long to be written, and an expander pin
with an index that is too long to be read.  The loader of documents may be any, but it is to come to
an end within the stack of the program, and so are the texts of the values that it gives.

* `Loader.Fits` says so of a loader and a text;
* `Board.Unread` and `Board.Uncompiled` list these causes for the text of a description and for a
  board; `Board.ofText_faults`, `Board.ofText_of_unread` and `Board.generate_eq_error_iff` say that
  there are no others and that each of them has its effect;
* `Command.reported_iff` says that a command ends with status zero or one if and only if there is no
  such cause.
-/

namespace BoardWiring

open Outcome

namespace Failure

variable {f : Failure}

/-- The failure is no configuration error, so that it is not reported as one. -/
def IsUnreported (f : Failure) : Prop := ∀ e, f ≠ .config e

theorem ofConfig_ne_error {α : Type} {x : Except ConfigError α} (hf : f.IsUnreported) :
    ofConfig x ≠ .error f := by
  cases x with
  | ok a => nofun
  | error e =>
    intro h
    cases h
    exact hf e rfl

end Failure

namespace Value

theorem written_eq_error_iff {v : Value} {f : Failure} :
    v.written = .error f ↔ v.isWritable = false ∧ f = .longInteger := by
  rw [written]
  cases v.isWritable <;> simp [eq_comm]

end Value

/-! ### The stack -/

namespace Value

mutual

/-- How many collections stand inside one another in a value. -/
def depth : Value → Nat
  | .list xs | .set xs => depthOfItems xs + 1
  | .pair a b => max (depth a) (depth b) + 1
  | .mapping es => depthOfEntries es + 1
  | .cyclic _ b => depth b
  | _ => 0

/-- `depth` of the deepest item. -/
def depthOfItems : List Value → Nat
  | [] => 0
  | x :: xs => max (depth x) (depthOfItems xs)

/-- `depth` of the deepest key or value of an entry. -/
def depthOfEntries : List (Value × Value) → Nat
  | [] => 0
  | (k, x) :: es => max (max (depth k) (depth x)) (depthOfEntries es)

end

mutual

/-- The number of collections in a value that contain themselves. -/
def cycles : Value → Nat
  | .list xs | .set xs => cyclesOfItems xs
  | .pair a b => cycles a + cycles b
  | .mapping es => cyclesOfEntries es
  | .cyclic _ b => cycles b + 1
  | _ => 0

/-- `cycles` of all items. -/
def cyclesOfItems : List Value → Nat
  | [] => 0
  | x :: xs => cycles x + cyclesOfItems xs

/-- `cycles` of all keys and values. -/
def cyclesOfEntries : List (Value × Value) → Nat
  | [] => 0
  | (k, x) :: es => cycles k + cycles x + cyclesOfEntries es

end

/-- The number of collections inside one another that can always be written. -/
def stackDepth : Nat := 500

-- The text of a part of a value comes back to a collection that contains itself once at most, and
-- goes down from there again.
/-- The stack suffices to write all parts of a value. -/
def isShallow (v : Value) : Bool := decide (v.depth * (v.cycles + 1) ≤ stackDepth)

end Value

/-- What is assumed of a loader and a text.  The loader gives a value, or says that the text is no
document or that a scalar in it cannot be built, and the stack suffices for what it gives. -/
structure Loader.Fits (load : Loader) (text : LooseText) : Prop where
  /-- The loader comes to an end within its stack. -/
  ends : load text ≠ .error .tooDeep
  /-- So do the texts of the values in it. -/
  shallow : ∀ v, load text = .ok v → v.isShallow = true

/-! ### Pins -/

namespace Pin

variable {family : Family} {absent : Bool} {v : Value} {f : Failure}

/-- An entry is too long for a pin: it is a text for an expander pin with an index that is too long
to be read, or another value with an integer that is too long to be written. -/
inductive Overlong : Value → Failure → Prop where
  | index {raw : String} {parts : Grammar.ExpanderParts}
      (form : Grammar.expander? raw.toList = some parts)
      (address : ExpanderPin.isAddress parts.address = true)
      (bank : (Bank.ofLetter? parts.letter).isSome = true)
      (long : Digits.limit < parts.index.length) :
      Overlong (.text raw) (.longNumber parts.index.length)
  | value {v : Value} (long : v.isWritable = false) : Overlong v .longInteger

theorem Overlong.isUnreported (h : Overlong v f) : f.IsUnreported := by
  cases h <;> nofun

theorem readExpander_eq_error_iff {raw : String} (hf : f.IsUnreported) :
    readExpander raw = .error f ↔ Overlong (.text raw) f := by
  constructor
  · intro h
    unfold readExpander at h
    split at h
    · cases h
      exact absurd rfl (hf _)
    · rename_i parts form
      split at h
      · rename_i address
        split at h
        · cases h
          exact absurd rfl (hf _)
        · rename_i bank hbank
          split at h
          · rename_i long
            cases h
            exact .index form address (by simp [hbank]) long
          · cases h
      · cases h
        exact absurd rfl (hf _)
  · intro h
    cases h with
    | value long => cases long
    | index form address bank long =>
      obtain ⟨bank, hbank⟩ := Option.isSome_iff_exists.1 bank
      simp [readExpander, form, address, hbank, long]

theorem readExpander_of_not_isExpander {raw : String}
    (h : Grammar.isExpander raw.toList = false) :
    readExpander raw = .error (.config (.expanderForm raw)) := by
  unfold readExpander
  split
  · rfl
  · rename_i parts hparts
    simp [isExpander_of_expander? hparts] at h

theorem readText_eq_error_iff {raw : String} (hf : f.IsUnreported) :
    readText family absent raw = .error f ↔ Overlong (.text raw) f := by
  have hown := @readExpander_of_not_isExpander raw
  rw [← readExpander_eq_error_iff hf]
  -- A text that does not begin as those for the expander is reported, also by its own reader.
  unfold readText
  split_ifs with hmark habsent hmeant
  · subst hmark
    simp [hown (by decide), (hf _).symm]
  · subst hmark
    simp [hown (by decide), (hf _).symm]
  · refine bind_eq_error_iff.trans (or_iff_left ?_)
    rintro ⟨p, hp, h⟩
    rw [ExpanderPin.number_eq (isWritable_of_readExpander hp)] at h
    split_ifs at h
    cases h
    exact hf _ rfl
  · rw [hown (by simpa using hmeant)]
    cases Grammar.number? family raw.toList <;> simp [(hf _).symm]

/-- **An entry is refused without a report if and only if it is too long for a pin.** -/
theorem read_eq_error_iff (hf : f.IsUnreported) :
    read family absent v = .error f ↔ Overlong v f := by
  cases v with
  | text raw => exact readText_eq_error_iff hf
  | torn t =>
    rw [read_torn, Except.error.injEq]
    refine iff_of_false (hf _).symm fun h => ?_
    cases h with
    | value long => cases long
  | _ =>
    -- any other entry is refused with an error that shows it
    refine (bind_eq_error_iff.trans (or_iff_left ?_)).trans (Value.written_eq_error_iff.trans ?_)
    · rintro ⟨_, -, h⟩
      cases h
      exact hf _ rfl
    · constructor
      · rintro ⟨long, rfl⟩
        exact .value long
      · intro h
        cases h with
        | value long => exact ⟨long, rfl⟩

theorem readOnChip_eq_error_iff (hf : f.IsUnreported) :
    readOnChip family v = .error f ↔ Overlong v f := by
  rw [← read_eq_error_iff hf]
  refine bind_eq_error_iff.trans (or_iff_left ?_)
  rintro ⟨p, -, h⟩
  cases p with
  | mcu => cases h
  | expander =>
    cases h
    exact hf _ rfl
  | absent =>
    cases h
    exact hf _ rfl

end Pin

/-! ### The bus -/

namespace Bus

variable {family : Family} {s : BusSettings} {shared : Bool} {f : Failure}

/-- One of the settings of a bus is too long, and those that are read before it are right. -/
inductive Overlong (family : Family) (s : BusSettings) : Failure → Prop where
  | sda {f : Failure} (sda_there : s.sda.holds = true) (scl_there : s.scl.holds = true)
      (long : Pin.Overlong s.sda f) : Overlong family s f
  | scl {p : Pin} {f : Failure} (scl_there : s.scl.holds = true)
      (sda : Pin.readOnChip family s.sda = .ok p) (long : Pin.Overlong s.scl f) :
      Overlong family s f
  | frequency {p q : Pin} (sda : Pin.readOnChip family s.sda = .ok p)
      (scl : Pin.readOnChip family s.scl = .ok q) (long : s.frequency.isWritable = false) :
      Overlong family s .longInteger

theorem frequency_ok {v : Value} {i : Int} (h : frequency family v = .ok i) :
    v = .null ∧ i = defaultFrequency ∨ v = .int i := by
  unfold frequency at h
  split at h
  · cases h
    exact .inl ⟨rfl, rfl⟩
  · split_ifs at h <;> cases h <;> exact .inr rfl
  · cases h

theorem frequency_error {v : Value} {e : ConfigError} (h : frequency family v = .error e) :
    e.raw = v := by
  unfold frequency at h
  split at h
  · cases h
  · split_ifs at h <;> cases h <;> rfl
  · cases h
    rfl

theorem overlong_of_plan (hf : f.IsUnreported) (h : plan family s = .error f) :
    Overlong family s f := by
  unfold plan at h
  split_ifs at h with hsda hscl
  · cases h
    exact absurd rfl (hf _)
  · cases h
    exact absurd rfl (hf _)
  · simp only [Bool.not_eq_true', Bool.not_eq_false] at hsda hscl
    obtain h | ⟨sda, hsda', h⟩ := bind_eq_error_iff.1 h
    · exact .sda hsda hscl ((Pin.readOnChip_eq_error_iff hf).1 h)
    obtain h | ⟨scl, hscl', h⟩ := bind_eq_error_iff.1 h
    · exact .scl hscl hsda' ((Pin.readOnChip_eq_error_iff hf).1 h)
    cases hfreq : frequency family s.frequency with
    | ok i => simp [hfreq] at h
    | error e =>
      rw [hfreq, Except.error.injEq, frequency_error hfreq] at h
      split_ifs at h with hw
      · exact absurd h.symm (hf _)
      · subst h
        exact .frequency hsda' hscl' (Bool.eq_false_iff.2 hw)

theorem isWritable_defaultFrequency : Digits.isWritable defaultFrequency = true :=
  Digits.isWritable_of_lt (by decide)

/-- **A bus is refused without a report if and only if one of its settings is too long.** -/
theorem buildSupported_eq_error_iff (hf : f.IsUnreported) :
    buildSupported family s shared = .error f ↔ Overlong family s f := by
  constructor
  · intro h
    obtain h | ⟨p, hp, h⟩ := bind_eq_error_iff.1 h
    · exact overlong_of_plan hf h
    obtain ⟨hsda, hscl, hfreq⟩ := plan_eq_ok_iff.1 hp
    obtain h | ⟨_, -, h⟩ := bind_eq_error_iff.1 h
    · unfold checkWritable at h
      split_ifs at h with hw
      cases h
      rcases frequency_ok hfreq with ⟨-, hdefault⟩ | hint
      · rw [hdefault, isWritable_defaultFrequency] at hw
        exact absurd rfl hw
      · have hlong : s.frequency.isWritable = false := by
          rw [hint, Value.isWritable]
          exact Bool.eq_false_iff.2 hw
        exact .frequency hsda hscl hlong
    · -- what is left to go wrong is the address of the expander, which is reported
      cases haddress : ExpanderPin.isAddress s.address with
      | true =>
        rw [expander_eq_ok haddress] at h
        split_ifs at h <;> cases h
      | false =>
        rw [expander_eq_error haddress] at h
        split_ifs at h <;> cases h
        exact absurd rfl (hf _)
  · rintro (⟨hsda, hscl, hlong⟩ | ⟨hscl, hsda, hlong⟩ | ⟨hsda, hscl, hlong⟩)
    · have hread : Pin.readOnChip family s.sda = .error f :=
        (Pin.readOnChip_eq_error_iff hf).2 hlong
      simp [buildSupported, plan, hsda, hscl, hread]
    · have hread : Pin.readOnChip family s.scl = .error f :=
        (Pin.readOnChip_eq_error_iff hf).2 hlong
      simp [buildSupported, plan, Pin.holds_of_readOnChip hsda, hscl, hsda, hread]
    · -- A long frequency fails where its error is written, or, if it is accepted, with the code.
      cases hfreq : frequency family s.frequency with
      | error e =>
        have hraw : e.raw.isWritable = false := by rw [frequency_error hfreq, hlong]
        simp [buildSupported, plan, Pin.holds_of_readOnChip hsda, Pin.holds_of_readOnChip hscl,
          hsda, hscl, hfreq, hraw]
      | ok i =>
        have hplan : plan family s = .ok ⟨_, _, i⟩ := plan_eq_ok_iff.2 ⟨hsda, hscl, hfreq⟩
        rcases frequency_ok hfreq with ⟨hnull, -⟩ | hint
        · rw [hnull] at hlong
          cases hlong
        · rw [hint, Value.isWritable] at hlong
          simp [buildSupported, hplan, checkWritable, hlong]

theorem build_eq_error_iff (hf : f.IsUnreported) :
    build family s shared = .error f ↔
      (s.enabled && isSupported family) = true ∧ Overlong family s f := by
  rw [← @buildSupported_eq_error_iff family s shared f hf]
  unfold build
  cases s.enabled with
  | false => simp
  | true =>
    cases isSupported family with
    | true => simp
    | false => cases s.expander <;> simp [(hf _).symm]

end Bus

/-! ### Descriptions -/

namespace Section

variable {v : Value} {name context : String}

theorem requiredText_eq_longInteger_iff :
    requiredText v name context = .error .longInteger ↔ (field v name).isWritable = false := by
  have hreport : Failure.longInteger.IsUnreported := nofun
  simp only [requiredText, bind_eq_error_iff, Failure.ofConfig_ne_error hreport, false_or,
    Failure.ofConfig_eq_ok_iff, required_eq_ok_iff, Value.written_eq_error_iff, and_true]
  constructor
  · rintro ⟨x, ⟨-, rfl⟩, hx⟩
    exact hx
  · intro hlong
    refine ⟨_, ⟨fun hnull => ?_, rfl⟩, hlong⟩
    rw [hnull] at hlong
    cases hlong

end Section

namespace BusSettings

open Section

variable {v : Value}

/-- The reader of the section comes to the pins of the bus. -/
structure ReachesPins (v : Value) : Prop extends ReachesAddress v where
  place : v.field? "expander_address" = Option.none ∨
    ∃ a, v.field? "expander_address" = some (.int a)

/-- The value for a pin of the bus is too long to be written, and the reader comes to it. -/
inductive Overlong (v : Value) : Prop where
  | sda (reached : ReachesPins v) (long : (field v "sda").isWritable = false)
  | scl {t : LooseText} (reached : ReachesPins v) (sda : HasText v "sda" t)
      (long : (field v "scl").isWritable = false)

theorem enabledOf_eq_longInteger_iff :
    enabledOf v = .error .longInteger ↔
      (∃ x, frequencyOf v = .ok x) ∧ (∃ a, addressOf v = .ok a) ∧
        ((field v "sda").isWritable = false ∨
          (∃ s, HasText v "sda" s) ∧ (field v "scl").isWritable = false) := by
  have hreport : Failure.longInteger.IsUnreported := nofun
  simp only [enabledOf, bind_eq_error_iff, Failure.ofConfig_ne_error hreport,
    Failure.ofConfig_eq_ok_iff, requiredText_eq_longInteger_iff, requiredText_eq_ok_iff,
    pure_eq_ok, reduceCtorEq, and_false, exists_false, or_false, false_or]
  constructor
  · rintro ⟨x, hx, a, ha, hlong | ⟨s, hs, hlong⟩⟩
    · exact ⟨⟨x, hx⟩, ⟨a, ha⟩, .inl hlong⟩
    · exact ⟨⟨x, hx⟩, ⟨a, ha⟩, .inr ⟨⟨s, hs⟩, hlong⟩⟩
  · rintro ⟨⟨x, hx⟩, ⟨a, ha⟩, hlong | ⟨⟨s, hs⟩, hlong⟩⟩
    · exact ⟨x, hx, a, ha, .inl hlong⟩
    · exact ⟨x, hx, a, ha, .inr ⟨s, hs, hlong⟩⟩

theorem ofValue_eq_longInteger_iff : ofValue v = .error .longInteger ↔ Overlong v := by
  constructor
  · intro h
    unfold ofValue at h
    split_ifs at h with hnull hmapping
    · obtain h | ⟨enabled, henabled, h⟩ := bind_eq_error_iff.1 h
      · exact absurd h (Failure.ofConfig_ne_error nofun)
      rw [Failure.ofConfig_eq_ok_iff, flag_eq_ok_iff] at henabled
      cases enabled with
      | false => cases h
      | true =>
        obtain ⟨⟨x, hx⟩, ⟨a, ha⟩, hlong⟩ := enabledOf_eq_longInteger_iff.1 h
        have hreached : ReachesPins v := ⟨⟨hmapping, henabled, (frequencyOf_eq_ok_iff.1 hx).1⟩,
          (addressOf_eq_ok_iff.1 ha).imp And.left fun h => ⟨a, h⟩⟩
        rcases hlong with hlong | ⟨⟨s, hs⟩, hlong⟩
        · exact .sda hreached hlong
        · exact .scl hreached hs hlong
    · cases h
  · intro h
    have hreached : ReachesPins v := by cases h <;> assumption
    have hlong : (field v "sda").isWritable = false ∨
        (∃ s, HasText v "sda" s) ∧ (field v "scl").isWritable = false := by
      cases h with
      | sda _ long => exact .inl long
      | scl _ sda long => exact .inr ⟨⟨_, sda⟩, long⟩
    have hflag : Failure.ofConfig (flag v "enabled" "i2c" true) = .ok true :=
      Failure.ofConfig_eq_ok_iff.2 (flag_eq_ok_iff.2 hreached.on)
    have haddress : ∃ a, addressOf v = .ok a := by
      rcases hreached.place with hmissing | ⟨a, ha⟩
      · exact ⟨_, addressOf_eq_ok_iff.2 (.inl ⟨hmissing, rfl⟩)⟩
      · exact ⟨a, addressOf_eq_ok_iff.2 (.inr ha)⟩
    have henabled := enabledOf_eq_longInteger_iff.2
      ⟨⟨_, frequencyOf_eq_ok_iff.2 ⟨hreached.frequency, rfl⟩⟩, haddress, hlong⟩
    simp [ofValue, isNull_eq_false_iff.2 (ne_null_of_isMapping hreached.mapping),
      hreached.mapping, hflag, henabled]

end BusSettings

/-! ### Boards -/

namespace Board

open Section

variable {v : Value}

/-- A value that has to be written is too long for that, and the reader comes to it. -/
inductive Overlong (v : Value) : Prop where
  | name (root : v.isMapping = true) (about : (field v "board").isMapping = true)
      (long : (field (field v "board") "name").isWritable = false)
  | chip {name : LooseText} (root : v.isMapping = true) (about : (field v "board").isMapping = true)
      (name_eq : HasText (field v "board") "name" name)
      (long : (field (field v "board") "chip").isWritable = false)
  | bus {name chip : LooseText} {family : Family} {keys : KeyWiring} (root : v.isMapping = true)
      (about : (field v "board").isMapping = true)
      (name_eq : HasText (field v "board") "name" name)
      (chip_eq : HasText (field v "board") "chip" chip)
      (family_eq : Family.ofChip? chip.head = some family)
      (keys_eq : KeyWiring.Described (field v "matrix") keys)
      (long : BusSettings.Overlong (field v "i2c"))

theorem ofValue_eq_longInteger_iff : ofValue v = .error .longInteger ↔ Overlong v := by
  have hreport : Failure.longInteger.IsUnreported := nofun
  constructor
  · intro h
    unfold ofValue at h
    by_cases hroot : v.isMapping = true
    · rw [if_pos hroot] at h
      obtain h | ⟨about, habout, h⟩ := bind_eq_error_iff.1 h
      · exact absurd h (Failure.ofConfig_ne_error hreport)
      obtain ⟨-, rfl⟩ := required_eq_ok_iff.1 (Failure.ofConfig_eq_ok_iff.1 habout)
      split_ifs at h with hmapping
      · simp only [bind_eq_error_iff, Failure.ofConfig_ne_error hreport, false_or,
          Failure.ofConfig_eq_ok_iff, requiredText_eq_longInteger_iff, requiredText_eq_ok_iff,
          familyOf_eq_ok_iff, required_eq_ok_iff, KeyWiring.ofValue_eq_ok_iff,
          BusSettings.ofValue_eq_longInteger_iff, pure_eq_ok, reduceCtorEq, and_false,
          exists_false, or_false] at h
        rcases h with hlong | ⟨name, hname, hlong | ⟨chip, hchip, family, hfamily, _, ⟨-, rfl⟩,
          keys, hkeys, hlong⟩⟩
        · exact .name hroot hmapping hlong
        · exact .chip hroot hmapping hname hlong
        · exact .bus hroot hmapping hname hchip hfamily hkeys hlong
      · cases h
    · rw [if_neg hroot] at h
      cases h
  · intro h
    have hroot : v.isMapping = true := by cases h <;> assumption
    have habout : (field v "board").isMapping = true := by cases h <;> assumption
    unfold ofValue
    rw [if_pos hroot, bind_eq_error_iff]
    refine .inr ⟨_, Failure.ofConfig_eq_ok_iff.2 (required_eq_ok_iff.2
      ⟨ne_null_of_isMapping habout, rfl⟩), ?_⟩
    simp only [if_pos habout, bind_eq_error_iff, Failure.ofConfig_ne_error hreport, false_or,
      Failure.ofConfig_eq_ok_iff, requiredText_eq_longInteger_iff, requiredText_eq_ok_iff,
      familyOf_eq_ok_iff, required_eq_ok_iff, KeyWiring.ofValue_eq_ok_iff,
      BusSettings.ofValue_eq_longInteger_iff, pure_eq_ok, reduceCtorEq, and_false, exists_false,
      or_false]
    cases h with
    | name _ _ hlong => exact .inl hlong
    | chip _ _ hname hlong => exact .inr ⟨_, hname, .inl hlong⟩
    | bus _ _ hname hchip hfamily hkeys hlong =>
      exact .inr ⟨_, hname, .inr ⟨_, hchip, _, hfamily, _,
        ⟨ne_null_of_isMapping hkeys.mapping, rfl⟩, _, hkeys, hlong⟩⟩

variable {load : Loader} {text : LooseText}

/-- The causes for which the text of a description is refused without a report: a scalar that cannot
be built, or a value that is too long to be written. -/
inductive Unread (load : Loader) (text : LooseText) : Failure → Prop where
  | scalar {fault : ScalarFault} (there : text.isBlank = false)
      (unbuilt : load text = .error (.unbuilt fault)) : Unread load text (.scalar fault)
  | length {v : Value} (there : text.isBlank = false) (read : load text = .ok v)
      (long : Overlong v) : Unread load text .longInteger

/-- **A text is refused with a validation error, or for one of these causes.** -/
theorem ofText_faults {f : Failure} (hfits : load.Fits text) (h : ofText load text = .error f) :
    (∃ message raw, f = .config (.validation message raw)) ∨ Unread load text f := by
  unfold ofText at h
  split_ifs at h with hblank
  · cases h
    exact .inl ⟨_, _, rfl⟩
  rw [Bool.not_eq_true] at hblank
  cases hload : load text with
  | error fault =>
    rw [hload] at h
    cases h
    cases fault with
    | malformed problem => exact .inl ⟨_, _, rfl⟩
    | unbuilt fault => exact .inr (.scalar hblank hload)
    | tooDeep => exact absurd hload hfits.ends
  | ok v =>
    rw [hload] at h
    cases failsOnly_ofValue f h with
    | shape validation =>
      obtain ⟨message, raw, rfl⟩ := validation
      exact .inl ⟨message, raw, rfl⟩
    | length => exact .inr (.length hblank hload (ofValue_eq_longInteger_iff.1 h))

theorem ofText_of_unread {f : Failure} (h : Unread load text f) : ofText load text = .error f := by
  cases h with
  | scalar there unbuilt => simp [ofText, there, unbuilt, LoadFault.failure]
  | length there read long => simp [ofText, there, read, ofValue_eq_longInteger_iff.2 long]

theorem Unread.isUnreported {f : Failure} (h : Unread load text f) : f.IsUnreported := by
  cases h <;> nofun

variable {b : Board} {f : Failure} {source : String}

/-- The causes for which a board is refused without a report: the first entry for the keys that is
no pin is too long for one, or, if all of them are pins, a setting of the bus is too long. -/
inductive Uncompiled (b : Board) : Failure → Prop where
  | entry {before after : List Value} {v : Value} {f : Failure}
      (split : b.keys.layout.toList = before ++ v :: after)
      (read : ∀ w ∈ before, ∃ p, Pin.read b.family b.keys.layout.isGrid w = .ok p)
      (long : Pin.Overlong v f) : Uncompiled b f
  | bus {f : Failure}
      (read : ∀ v ∈ b.keys.layout.toList, ∃ p, Pin.read b.family b.keys.layout.isGrid v = .ok p)
      (works : b.hasBus = true) (long : Bus.Overlong b.family b.bus f) : Uncompiled b f

theorem readLayout_eq_error_iff (hf : f.IsUnreported) :
    b.readLayout = .error f ↔ ∃ before v after, b.keys.layout.toList = before ++ v :: after ∧
      (∀ w ∈ before, ∃ p, Pin.read b.family b.keys.layout.isGrid w = .ok p) ∧
        Pin.Overlong v f := by
  simp only [readLayout, Layout.read_eq_error_iff, Pin.read_eq_error_iff hf]

theorem Uncompiled.isUnreported (h : Uncompiled b f) : f.IsUnreported := by
  rcases h with ⟨-, -, hlong⟩ | ⟨-, -, hlong⟩
  · exact hlong.isUnreported
  · cases hlong with
    | sda _ _ hlong => exact hlong.isUnreported
    | scl _ _ hlong => exact hlong.isUnreported
    | frequency => nofun

/-- **A board is refused without a report for no other cause, and for each of these.** -/
theorem generate_eq_error_iff (hf : f.IsUnreported) :
    b.generate source = .error f ↔ Uncompiled b f := by
  constructor
  · intro h
    obtain h | ⟨layout, hlayout, h⟩ := bind_eq_error_iff.1 h
    · obtain ⟨before, v, after, hsplit, hread, hlong⟩ := (readLayout_eq_error_iff hf).1 h
      exact .entry hsplit hread hlong
    have hread := Layout.read_ok hlayout
    obtain h | ⟨bus, hbus, h⟩ := bind_eq_error_iff.1 h
    · obtain ⟨hworks, hlong⟩ := (Bus.build_eq_error_iff hf).1 h
      exact .bus hread hworks hlong
    · -- all steps from here on report their errors
      have hbuilt := Bus.build_eq_ok_iff.1 hbus
      rw [readLayout_eq hread, Except.ok.injEq] at hlayout
      subst hlayout
      simp only [bind_eq_error_iff, hbuilt.claimedPins_eq, Failure.ofConfig_ne_error hf, pure_eq_ok,
        reduceCtorEq, and_false, exists_false, or_false, false_or, Except.ok.injEq] at h
      obtain ⟨_, -, _, rfl, h | ⟨_, hunique, h⟩⟩ := h
      · have hrepeat : fault? (Emit.checkUnique (b.busPins ++ b.pins.toList)) = some f := by
          rw [busPins, h, fault?]
        rw [← head?_repeatFaults] at hrepeat
        obtain ⟨e, -, rfl⟩ := Option.map_eq_some_iff.1 hrepeat
        exact absurd rfl (hf e)
      · rw [Emit.layout_eq (sound_pins hread)
          (sublist_unique (Emit.checkUnique_eq_ok_iff.1 hunique))] at h
        split at h
        · cases h
          exact absurd rfl (hf _)
        · cases h
  · rintro (⟨hsplit, hread, hlong⟩ | ⟨hread, hworks, hlong⟩)
    · have hlayout : b.readLayout = .error f :=
        (readLayout_eq_error_iff hf).2 ⟨_, _, _, hsplit, hread, hlong⟩
      simp [generate, hlayout]
    · have hbus : Bus.build b.family b.bus (b.pins.toList.any Pin.isExpander) = .error f :=
        (Bus.build_eq_error_iff hf).2 ⟨hworks, hlong⟩
      simp only [generate, readLayout_eq hread, ok_bind, hbus, error_bind]

/-- The causes for which the text of a description cannot be compiled and nothing is reported. -/
inductive Escapes (load : Loader) (text : LooseText) (f : Failure) : Prop where
  | unread (cause : Unread load text f)
  | uncompiled {b : Board} (read : ofText load text = .ok b) (cause : b.Uncompiled f)

theorem Escapes.isUnreported (h : Escapes load text f) : f.IsUnreported := by
  cases h with
  | unread cause => exact cause.isUnreported
  | uncompiled _ cause => exact cause.isUnreported

end Board

/-! ### The command -/

namespace Command

variable {load : Loader} {fs fs' : Files} {q : Request} {text : LooseText} {source : String}
  {f : Failure}

theorem compile_eq_error_iff {s : String} (hfits : load.Fits s) (hf : f.IsUnreported) :
    (compile load s source).result = .error f ↔ Board.Escapes load s f := by
  unfold compile
  cases hread : Board.ofText load s with
  | error g =>
    constructor
    · rintro h
      cases h
      rcases Board.ofText_faults hfits hread with ⟨_, _, rfl⟩ | hcause
      · exact absurd rfl (hf _)
      · exact .unread hcause
    · intro h
      cases h with
      | unread cause =>
        cases hread.symm.trans (Board.ofText_of_unread cause)
        rfl
      | uncompiled read => cases hread.symm.trans read
  | ok b =>
    refine (Board.generate_eq_error_iff hf).trans ⟨.uncompiled hread, fun h => ?_⟩
    cases h with
    | unread cause => cases hread.symm.trans (Board.ofText_of_unread cause)
    | uncompiled read cause =>
      cases hread.symm.trans read
      exact cause

/-- Nothing but the description can be wrong with a request: its log level is known, its input is a
file with a text, and what it asks for can be written or printed. -/
structure Served (load : Loader) (fs : Files) (q : Request) (text : LooseText) : Prop where
  level : ∃ r, loggersOf q = .ok r
  input : ∃ bytes s, fs.read q.input = .ok bytes ∧ decode? bytes = some s ∧ text = s
  output : ∀ path u, target q = some path → attempt load fs q = .ok u →
    (fs.write path u.render).1 = .ok ()
  print : ∀ u, target q = none → attempt load fs q = .ok u → ∃ s : String, u.render = s

theorem Served.attempt_eq (h : Served load fs q text) : ∃ s : String, text = s ∧
    attempt load fs q = (compile load s (Path.baseName q.input)).result.mapError .failure := by
  obtain ⟨r, hr⟩ := h.level
  obtain ⟨bytes, s, hbytes, hdecode, htext⟩ := h.input
  exact ⟨s, htext, attempt_of_read hr hbytes hdecode⟩

/-- A request that can be served ends with status zero or one, unless a cause goes unreported. -/
theorem Executed.ending_iff {o : Outcome} (h : Executed load fs q o fs')
    (hs : Served load fs q text) (hfits : load.Fits text) :
    o.ending = .exit 0 ∨ o.ending = .exit 1 ↔ ∀ f, ¬Board.Escapes load text f := by
  obtain ⟨s, rfl, hattempt⟩ := hs.attempt_eq
  have hcompiled : (∃ u, attempt load fs q = .ok u) ∨
      (∃ e, attempt load fs q = .error (.failure (.config e))) →
        ∀ f, ¬Board.Escapes load s f := by
    intro hor f hf
    rw [hattempt, (compile_eq_error_iff hfits hf.isUnreported).2 hf] at hor
    rcases hor with ⟨u, hu⟩ | ⟨e, he⟩
    · cases hu
    · cases he
      exact hf.isUnreported _ rfl
  cases h with
  | printed unit => exact iff_of_true (.inl rfl) (hcompiled (.inl ⟨_, unit⟩))
  | written unit => exact iff_of_true (.inl rfl) (hcompiled (.inl ⟨_, unit⟩))
  | unprinted unit aim fault =>
    obtain ⟨t, hwhole⟩ := hs.print _ aim unit
    simp [hwhole] at fault
  | unwritten unit aim write =>
    have hwritten := hs.output _ _ aim unit
    simp [write] at hwritten
  | refused fault => exact iff_of_true (.inr rfl) (hcompiled (.inr ⟨_, fault⟩))
  | broken fault other =>
    refine iff_of_false (by simp) fun hnone => ?_
    cases hresult : (compile load s (Path.baseName q.input)).result with
    | ok u => simp [hattempt, hresult, Except.mapError] at fault
    | error f =>
      have hf : f.IsUnreported := by
        rintro e rfl
        simp only [hattempt, hresult, Except.mapError, Except.error.injEq] at fault
        exact other e fault.symm
      exact hnone f ((compile_eq_error_iff hfits hf).1 hresult)

/-- **A bad description is reported, except for the causes listed.**  The text of a description is
refused with a validation error or for a cause in `Board.Unread`, the board in it with a
configuration error or for a cause in `Board.Uncompiled`, and each of these causes has its effect;
so that a command with which nothing else is wrong ends with status zero or one if and only if the
description gives none of them. -/
theorem reported_iff (lib : Libraries) (text : LooseText) (hfits : lib.load.Fits text) :
    (∀ f, Board.ofText lib.load text = .error f →
      (∃ message raw, f = .config (.validation message raw)) ∨ Board.Unread lib.load text f) ∧
    (∀ f, Board.Unread lib.load text f → Board.ofText lib.load text = .error f) ∧
    (∀ b, Board.ofText lib.load text = .ok b → ∀ source f,
      (b.generate source = .error f → (∃ e, f = .config e) ∨ b.Uncompiled f) ∧
      (b.Uncompiled f → b.generate source = .error f)) ∧
    ∀ stamp fs argv q, lib.parse argv = .ok q → Served lib.load fs q text →
      ((runOn lib stamp fs argv).1.ending = .exit 0 ∨
          (runOn lib stamp fs argv).1.ending = .exit 1 ↔
        ∀ f, ¬Board.Escapes lib.load text f) := by
  refine ⟨fun f => Board.ofText_faults hfits, fun f => Board.ofText_of_unread,
    fun b _ source f => ⟨fun h => ?_, fun h => (Board.generate_eq_error_iff h.isUnreported).2 h⟩,
    fun stamp fs argv q hargs hs => ?_⟩
  · by_cases hf : ∃ e, f = .config e
    · exact .inl hf
    · exact .inr ((Board.generate_eq_error_iff fun e he => hf ⟨e, he⟩).1 h)
  · have hrun : runOn lib stamp fs argv = (execute lib.load (tableWorld stamp) q).run fs := by
      rw [runOn, run, hargs]
    rw [hrun]
    exact executed_execute.ending_iff hs hfits

/-- The text of a description in which a date is none. -/
def undated : String := "board: 2020-13-01\n"

theorem read_undated : Document.read undated = .error (.unbuilt .noSuchDate) :=
  fault?_eq_some_iff.1 (by decide +kernel)

/-- A table with this description. -/
def calendar : Files where
  files := [(["b.yaml"], undated.toUTF8.toList)]
  directories := []
  sinks := []
  start := []

theorem reported_iff_calendar :
    Loader.Fits Document.read undated ∧
      Served Document.read calendar ⟨"b.yaml", none, some "WARNING"⟩ undated ∧
      (∃ f, Board.Unread Document.read undated f) ∧
      ¬((runOn ⟨Arguments.read, Document.read⟩ "T" calendar ["b.yaml"]).1.ending = .exit 0 ∨
        (runOn ⟨Arguments.read, Document.read⟩ "T" calendar ["b.yaml"]).1.ending = .exit 1) := by
  have hfits : Loader.Fits Document.read undated :=
    ⟨by rw [read_undated]; nofun, by rw [read_undated]; nofun⟩
  obtain ⟨-, -, -, hending⟩ := reported_iff ⟨Arguments.read, Document.read⟩ undated hfits
  have hunread : Board.Unread Document.read undated (.scalar .noSuchDate) :=
    .scalar (by decide +kernel) read_undated
  have hserved : Served Document.read calendar ⟨"b.yaml", none, some "WARNING"⟩ undated := by
    refine ⟨⟨_, rfl⟩, ⟨_, undated, rfl, by decide +kernel, rfl⟩, nofun, fun u _ hu => ?_⟩
    -- there is nothing to print, because there is no unit
    have hfailed : (compile Document.read undated (Path.baseName "b.yaml")).result =
        .error (.scalar .noSuchDate) :=
      (compile_eq_error_iff hfits hunread.isUnreported).2 (.unread hunread)
    rw [attempt_of_read rfl rfl (by decide +kernel : decode? undated.toUTF8.toList = some undated),
      hfailed] at hu
    cases hu
  refine ⟨hfits, hserved, ⟨_, hunread⟩, fun hend => ?_⟩
  exact (hending "T" calendar ["b.yaml"] _ rfl hserved).1 hend _ (.unread hunread)

theorem undated_not_reported :
    ∃ f, Board.ofText Document.read undated = .error f ∧ ∀ e, f ≠ .config e := by
  exact ⟨_, Board.ofText_of_unread (.scalar (by decide +kernel) read_undated), nofun⟩

end Command

end BoardWiring
