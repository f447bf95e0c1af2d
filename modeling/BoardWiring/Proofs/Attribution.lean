import BoardWiring.Proofs.Faults
import BoardWiring.Proofs.Generation
import Mathlib.Tactic.Common

/-!
# The texts that errors report

An error about a pin reports the text of the pin as it was written, or, where it comes from the
pin that the text has been read as, the canonical spelling of that pin.  The two differ only on
expander pins, whose hexadecimal digits, second low line and digits may be written in other ways.

* `Pin.blamedText` is the text that the readers of pins report;
* `Pin.ReportedAs` are the texts by which any error may report a text;
* `Board.AboutPin` and `Board.AboutBoard` part the errors of a board into those about one of its
  pins and the others, and `Board.failsOnly_generate` says that there are no further ones.
-/

namespace BoardWiring

open Outcome

namespace Pin

variable {family : Family} {absent : Bool} {raw t : String} {p : ExpanderPin} {e : ConfigError}

/-! ### The readers of pins -/

/-- The text that an error reports with which a text is refused: the text itself, or the canonical
spelling of the expander pin that it gives a number which its bank does not have. -/
def blamedText (raw : String) : String :=
  match readExpander raw with
  | .ok p => if p.inBank then raw else p.text
  | .error _ => raw

theorem isExpander_of_expander? {cs : List Char} {parts : Grammar.ExpanderParts}
    (h : Grammar.expander? cs = some parts) : Grammar.isExpander cs = true := by
  have hprefix : Grammar.body cs <+: cs := by
    unfold Grammar.body
    split_ifs
    · exact List.dropLast_prefix cs
    · exact List.prefix_refl cs
  unfold Grammar.expander? at h
  split at h
  · rename_i hbody
    rw [Grammar.isExpander, List.isPrefixOf_iff_prefix]
    rw [hbody] at hprefix
    exact List.IsPrefix.trans ⟨_, rfl⟩ hprefix
  · cases h

theorem isExpander_of_readExpander {e : ExpanderPin} (h : readExpander raw = .ok e) :
    Grammar.isExpander raw.toList = true := by
  unfold readExpander at h
  split at h
  · cases h
  · exact isExpander_of_expander? ‹_›

theorem blamedText_of_not_isExpander (h : Grammar.isExpander raw.toList = false) :
    blamedText raw = raw := by
  unfold blamedText
  split
  · rename_i p hp
    simp [isExpander_of_readExpander hp] at h
  · rfl

/-- A text is refused with an error that reports it. -/
def Refused (raw : String) (f : Failure) : Prop :=
  ∀ e, f = .config e → e.raw = .text (blamedText raw)

@[simp] theorem refused_config_iff :
    Refused raw (.config e) ↔ e.raw = .text (blamedText raw) :=
  ⟨fun h => h e rfl, by rintro h d ⟨⟩; exact h⟩

theorem failsOnly_readExpander : FailsOnly (Refused raw) (readExpander raw) := by
  intro f hf e he
  have hblamed : blamedText raw = raw := by rw [blamedText, hf]
  rw [hblamed]
  subst he
  unfold readExpander at hf
  split at hf
  · cases hf
    exact LooseText.value_ofString raw
  · split at hf
    · split at hf
      · cases hf
        exact LooseText.value_ofString raw
      · split at hf <;> cases hf
    · cases hf
      exact LooseText.value_ofString raw

theorem failsOnly_readText : FailsOnly (Refused raw) (readText family absent raw) := by
  unfold readText
  split_ifs with hmark habsent hmeant
  · exact failsOnly_ok _
  · have hown : Grammar.isExpander raw.toList = false := by
      subst hmark
      decide
    rw [failsOnly_error_iff, refused_config_iff, blamedText_of_not_isExpander hown, hmark]
    rfl
  · -- A number that the bank does not have is the one fault that reports the pin, not the text.
    refine failsOnly_bind_iff.2 ⟨failsOnly_readExpander, fun p hp => ?_⟩
    rw [ExpanderPin.number_eq (isWritable_of_readExpander hp)]
    cases hbank : p.inBank with
    | true => simp
    | false => simp [blamedText, hp, hbank, ConfigError.raw, ConfigError.expanderIndex]
  · rw [Bool.not_eq_true] at hmeant
    split
    · exact failsOnly_ok _
    · simp [blamedText_of_not_isExpander hmeant, ConfigError.raw]

theorem readText_of_not_inBank (hmark : raw ≠ absentMark) (h : readExpander raw = .ok p)
    (hbank : p.inBank = false) :
    readText family absent raw = .error (.config (.expanderIndex p)) := by
  rw [readText, if_neg hmark, if_pos (isExpander_of_readExpander h), h, ok_bind,
    ExpanderPin.number_eq (isWritable_of_readExpander h), hbank]
  rfl

theorem failsOnly_readOnChip : FailsOnly (Refused raw) (readOnChip family (.text raw)) := by
  refine failsOnly_bind_iff.2 ⟨failsOnly_readText, fun p hp => ?_⟩
  have hspelt : Spelt family false raw p := readText_eq_ok_iff.1 hp
  cases hspelt with
  | absent mark allowed => cases allowed
  | expander _ _ form inBank =>
    simp [blamedText, form, inBank, ConfigError.raw, ConfigError.notOnChip]
  | mcu => simp

theorem blamedText_eq_iff :
    blamedText raw = raw ↔ ∀ p, readExpander raw = .ok p → p.inBank = false → p.text = raw := by
  cases hraw : readExpander raw with
  | error f => simp [blamedText, hraw]
  | ok p => cases hbank : p.inBank <;> simp [blamedText, hraw, hbank]

/-! ### Reported texts -/

/-- The texts by which an error may report a text: as it is written, and, if it has the form of an
expander pin, by the canonical spelling of that pin. -/
inductive ReportedAs (raw : String) : String → Prop where
  | written : ReportedAs raw raw
  | canonical {p : ExpanderPin} (form : readExpander raw = .ok p) : ReportedAs raw p.text

theorem reportedAs_blamedText (raw : String) : ReportedAs raw (blamedText raw) := by
  unfold blamedText
  split
  · rename_i p hp
    split_ifs
    · exact .written
    · exact .canonical hp
  · exact .written

/-- The pin that a text stands for has one of the texts by which the text may be reported. -/
theorem Spelt.reportedAs {p : Pin} (h : Spelt family absent raw p) : ReportedAs raw p.text := by
  cases h with
  | absent mark => exact mark ▸ .written
  | expander _ _ form => exact .canonical form
  | mcu => exact .written

end Pin

namespace Board

variable {b : Board} {e : ConfigError} {p : Pin}

/-! ### The errors of boards -/

/-- The entries for the pins of a board. -/
def entries (b : Board) : List Value := b.keys.layout.toList ++ [b.bus.sda, b.bus.scl]

/-- The entries for pins are texts; the pins of the bus may be missing. -/
structure HasTexts (b : Board) : Prop where
  keys : ∀ v ∈ b.keys.layout.toList, ∃ raw, v = .text raw
  sda : b.bus.sda = .null ∨ ∃ raw, b.bus.sda = .text raw
  scl : b.bus.scl = .null ∨ ∃ raw, b.bus.scl = .text raw

/-- The error reports the text of one of the pins of a board. -/
def AboutPin (b : Board) (e : ConfigError) : Prop :=
  ∃ raw t, .text raw ∈ b.entries ∧ Pin.ReportedAs raw t ∧ e.raw = .text t

/-- The error is about the settings of a board, none of its pins. -/
inductive AboutBoard (b : Board) : ConfigError → Prop where
  | unset (message : String) : AboutBoard b (.invalid message)
  | frequency {v : Value} {family : Option Family} {accepted : List Value} :
      AboutBoard b (.invalidFrequency v family accepted)
  | raggedRow {row length expected : Nat} : AboutBoard b (.raggedRow row length expected)
  | expanderAddress : AboutBoard b (.expanderAddress ("0x" ++ Digits.hexByte b.bus.address))
  | unsupportedBus : AboutBoard b (.expanderWithoutBus b.family)

/-- If the fault is reported, it is as an error about the board or about one of its pins. -/
def Reported (b : Board) (f : Failure) : Prop :=
  ∀ e, f = .config e → b.AboutBoard e ∨ b.AboutPin e

@[simp] theorem reported_config_iff :
    b.Reported (.config e) ↔ b.AboutBoard e ∨ b.AboutPin e :=
  ⟨fun h => h e rfl, by rintro h d ⟨⟩; exact h⟩

@[simp] theorem reported_longInteger : b.Reported .longInteger := nofun

theorem reported_of_refused {raw : String} (hmem : .text raw ∈ b.entries) {f : Failure}
    (h : Pin.Refused raw f) : b.Reported f := fun e he =>
  .inr ⟨raw, Pin.blamedText raw, hmem, Pin.reportedAs_blamedText raw, h e he⟩

theorem failsOnly_readLayout (hb : b.HasTexts) : FailsOnly b.Reported b.readLayout := by
  refine Layout.failsOnly_read fun v hv => ?_
  obtain ⟨raw, rfl⟩ := hb.keys v hv
  exact Pin.failsOnly_readText.imp fun f => reported_of_refused (List.mem_append_left _ hv)

theorem failsOnly_readOnChip {v : Value} (hmem : v ∈ b.entries)
    (hv : v = .null ∨ ∃ raw, v = .text raw) (hthere : v.holds = true) :
    FailsOnly b.Reported (Pin.readOnChip b.family v) := by
  obtain rfl | ⟨raw, rfl⟩ := hv
  · cases hthere
  · exact Pin.failsOnly_readOnChip.imp fun f => reported_of_refused hmem

theorem failsOnly_frequency {family : Family} {v : Value} :
    FailsOnly b.AboutBoard (Bus.frequency family v) := by
  unfold Bus.frequency
  split
  · simp
  · simp [AboutBoard.frequency]
  · simp [AboutBoard.frequency]

theorem failsOnly_plan (hb : b.HasTexts) : FailsOnly b.Reported (Bus.plan b.family b.bus) := by
  have hsda : b.bus.sda ∈ b.entries := by simp [entries]
  have hscl : b.bus.scl ∈ b.entries := by simp [entries]
  unfold Bus.plan
  simp only [failsOnly_ite_iff, failsOnly_error_iff, reported_config_iff, AboutBoard.unset, true_or,
    implies_true, true_and, Bool.not_eq_true', Bool.not_eq_false, failsOnly_bind_iff]
  intro hsda' hscl'
  refine ⟨failsOnly_readOnChip hsda hb.sda hsda', fun _ _ =>
    ⟨failsOnly_readOnChip hscl hb.scl hscl', fun _ _ => ?_⟩⟩
  cases hf : Bus.frequency b.family b.bus.frequency with
  | ok f => simp
  | error e =>
    have he : b.AboutBoard e := failsOnly_frequency e hf
    by_cases hw : e.raw.isWritable = true <;> simp [hw, he]

theorem failsOnly_buildSupported (hb : b.HasTexts) (shared : Bool) :
    FailsOnly b.Reported (Bus.buildSupported b.family b.bus shared) := by
  refine failsOnly_bind_iff.2 ⟨failsOnly_plan hb, fun p _ =>
    failsOnly_bind_iff.2 ⟨by simp [Bus.checkWritable], fun _ _ => ?_⟩⟩
  cases haddress : ExpanderPin.isAddress b.bus.address with
  | true => simp [Bus.expander_eq_ok haddress]
  | false => simp [Bus.expander_eq_error haddress, AboutBoard.expanderAddress]

theorem failsOnly_build (hb : b.HasTexts) (shared : Bool) :
    FailsOnly b.Reported (Bus.build b.family b.bus shared) := by
  simp [Bus.build, failsOnly_buildSupported hb, AboutBoard.unsupportedBus]

/-- A pin that the entry of a board has been read as is reported by a text of that entry. -/
theorem aboutPin_of_spelt {family : Family} {absent : Bool} {raw : String}
    (hmem : .text raw ∈ b.entries) (hp : Pin.Spelt family absent raw p)
    (he : e.raw = .text p.text) : b.AboutPin e := ⟨raw, p.text, hmem, hp.reportedAs, he⟩

theorem aboutPin_of_mem_pins
    (hread : ∀ v ∈ b.keys.layout.toList, ∃ p, Pin.read b.family b.keys.layout.isGrid v = .ok p)
    (hp : p ∈ b.pins.toList) (he : e.raw = .text p.text) : b.AboutPin e := by
  rw [pins, Layout.toList_map] at hp
  obtain ⟨v, hv, rfl⟩ := List.mem_map.1 hp
  obtain ⟨raw, rfl, hs⟩ := Pin.read_eq_ok_iff.1 (read_ofEntry (hread v hv))
  exact aboutPin_of_spelt (List.mem_append_left _ hv) hs he

theorem aboutPin_of_mem_busPins {shared : Bool} {bus : Fragment}
    (hbuilt : Bus.Built b.family b.bus shared bus) (hp : p ∈ b.busPins)
    (he : e.raw = .text p.text) : b.AboutPin e := by
  have hchip : ∀ {v : Value}, v ∈ b.entries → Pin.readOnChip b.family v = .ok p → b.AboutPin e := by
    intro v hv hread
    obtain ⟨raw, n, rfl, rfl, hs⟩ := Pin.readOnChip_eq_ok_iff.1 hread
    exact aboutPin_of_spelt hv hs he
  rw [busPins, Bus.pins] at hp
  cases hbuilt with
  | disabled off => simp [off] at hp
  | unsupported _ hfam => simp [hfam] at hp
  | constructed on hfam settings =>
    obtain ⟨hsda, hscl, -⟩ := Bus.plan_eq_ok_iff.1 settings
    simp only [on, hfam, Bool.and_self, if_true, Pin.ofEntry_of_readOnChip hsda,
      Pin.ofEntry_of_readOnChip hscl, List.mem_cons, List.not_mem_nil, or_false] at hp
    rcases hp with rfl | rfl
    · exact hchip (by simp [entries]) hsda
    · exact hchip (by simp [entries]) hscl

theorem raw_of_roleFault {family : Family} {role : Role}
    (h : Emit.roleFault? family p role = some e) : e.raw = .text p.text := by
  cases role with
  | output => cases h
  | input => cases h
  | interruptInput =>
    cases p with
    | absent => cases h
    | expander x =>
      cases h
      rfl
    | mcu name number =>
      simp only [Emit.roleFault?, Emit.capabilityFault?] at h
      split_ifs at h
      cases h
      rfl

theorem mem_of_firstRepeat? {ps : List Pin} (h : Emit.firstRepeat? ps = some p) : p ∈ ps := by
  rw [Emit.firstRepeat?_eq_find?] at h
  obtain ⟨q, hq, rfl⟩ := Option.map_eq_some_iff.1 h
  exact List.fst_mem_of_mem_zipIdx (List.mem_of_find?_eq_some hq)

theorem raw_of_checkExpanders {bus : Fragment} {ps : List Pin}
    (h : checkExpanders bus ps = .error e) : ∃ p ∈ ps, e.raw = .text p.text := by
  unfold checkExpanders at h
  split at h
  · rename_i p hp
    split_ifs at h
    cases h
    exact ⟨p, List.mem_of_find?_eq_some hp, rfl⟩
  · cases h

theorem raw_of_checkUnique {ps : List Pin} (h : Emit.checkUnique ps = .error (.config e)) :
    ∃ p ∈ ps, e.raw = .text p.text := by
  unfold Emit.checkUnique at h
  split at h
  · rename_i p hp
    unfold Pin.blamed at h
    split_ifs at h
    · cases h
      exact ⟨p, mem_of_firstRepeat? hp, rfl⟩
    · cases h
  · cases h

theorem mem_of_check {fs : List Fragment} (h : Fragment.check fs = .error e) :
    ∃ f ∈ fs, e ∈ f.diagnostics := by
  unfold Fragment.check at h
  split at h
  · rename_i d hd
    cases h
    obtain ⟨f, hf, hhead⟩ := List.exists_of_findSome?_eq_some hd
    exact ⟨f, hf, List.mem_of_head? hhead⟩
  · cases h

theorem aboutBoard_of_ragged {l : Layout Pin} (h : Emit.raggedFault? l = some e) :
    b.AboutBoard e := by
  cases l with
  | matrix => cases h
  | grid rows =>
    obtain ⟨r, -, rfl⟩ := Option.map_eq_some_iff.1 h
    exact .raggedRow

/-- **Every error of a board is about its settings, or reports the text of one of its pins.** -/
theorem failsOnly_generate (hb : b.HasTexts) (source : String) :
    FailsOnly b.Reported (b.generate source) := by
  refine failsOnly_bind_iff.2 ⟨failsOnly_readLayout hb, fun layout hlayout => ?_⟩
  have hread := Layout.read_ok hlayout
  rw [readLayout_eq hread, Except.ok.injEq] at hlayout
  subst hlayout
  refine failsOnly_bind_iff.2 ⟨failsOnly_build hb _, fun bus hbus => ?_⟩
  have hbuilt := Bus.build_eq_ok_iff.1 hbus
  have hkeys {p : Pin} {e : ConfigError} : p ∈ b.pins.toList → e.raw = .text p.text →
      b.Reported (.config e) := fun hp he =>
    reported_config_iff.2 (.inr (aboutPin_of_mem_pins hread hp he))
  simp only [failsOnly_bind_iff, failsOnly_ofConfig_iff, Failure.ofConfig_eq_ok_iff,
    hbuilt.claimedPins_eq, failsOnly_ok, true_and, Except.ok.injEq, pure_eq_ok]
  refine ⟨fun e he => ?_, fun _ _ claimed hclaimed => ⟨fun f hf e he => ?_, fun _ hunique => ?_⟩⟩
  · obtain ⟨p, hp, hraw⟩ := raw_of_checkExpanders he
    exact hkeys hp hraw
  · subst hclaimed he
    obtain ⟨p, hp, hraw⟩ := raw_of_checkUnique hf
    rcases List.mem_append.1 hp with hbus | hp
    · exact .inr (aboutPin_of_mem_busPins hbuilt hbus hraw)
    · exact hkeys hp hraw e rfl
  · -- What remains of the emitters is the fault of a ragged row, and those that the inputs carry.
    rw [Emit.layout_eq (sound_pins hread)
      (sublist_unique (Emit.checkUnique_eq_ok_iff.1 hunique))]
    cases hrag : Emit.raggedFault? b.pins with
    | some e => simp [aboutBoard_of_ragged hrag]
    | none =>
      simp only [failsOnly_ok, true_and, Except.ok.injEq]
      rintro pins rfl
      refine ⟨fun e he => ?_, fun _ _ => trivial⟩
      obtain ⟨f, hf, hd⟩ := mem_of_check he
      rcases List.mem_cons.1 hf with rfl | hf
      · simp [hbuilt.diagnostics_eq] at hd
      · rw [List.mem_singleton.1 hf, Emit.diagnostics_statements, List.mem_flatMap] at hd
        obtain ⟨p, hp, hfault⟩ := hd
        exact hkeys (Layout.mem_toList_of_mem_inputs hp)
          (raw_of_roleFault (Option.mem_toList.1 hfault))

/-- **The text of a pin is reported as it was written.**  A text is refused with an error that
reports it, unless it is another spelling of an expander pin with a number that the bank does not
have; and an error of a board that is not about its settings reports the text of one of its pins,
as it was written or by the canonical spelling of the expander pin that it stands for. -/
theorem errors_report_texts (family : Family) (absent : Bool) (raw : String) (b : Board)
    (source : String) (e : ConfigError) :
    (Pin.readText family absent raw = .error (.config e) ∨
        Pin.readOnChip family (.text raw) = .error (.config e) →
      (e.raw = .text raw ↔
        ∀ p, Pin.readExpander raw = .ok p → p.inBank = false → p.text = raw)) ∧
    (b.HasTexts → b.generate source = .error (.config e) → b.AboutBoard e ∨ b.AboutPin e) := by
  refine ⟨fun h => ?_, fun hb h => failsOnly_generate hb source _ h e rfl⟩
  have he : e.raw = .text (Pin.blamedText raw) := by
    rcases h with h | h
    · exact Pin.failsOnly_readText _ h e rfl
    · exact Pin.failsOnly_readOnChip _ h e rfl
  rw [he, ← Pin.blamedText_eq_iff, Value.text.injEq]

/-- A board without a bus, on which an expander pin is written with a second low line. -/
def stray : Board where
  name := "stray"
  chip := "nRF52840"
  family := .nrf52
  keys := ⟨.matrix [.text "MI20_A_1"] [.text "P0_13"], false, false⟩
  bus := .none

theorem errors_report_texts_stray :
    ∃ e d, Pin.readText .nrf52 false "MI20_A9" = .error (.config e) ∧ e.raw = .text "MI20_A9" ∧
      stray.HasTexts ∧ stray.generate "" = .error (.config d) ∧
      (stray.AboutBoard d ∨ stray.AboutPin d) := by
  have hform : Pin.readExpander "MI20_A9" = .ok ⟨0x20, .a, 9⟩ := rfl
  have hread : Pin.readText .nrf52 false "MI20_A9" =
      .error (.config (.expanderIndex ⟨0x20, .a, 9⟩)) :=
    Pin.readText_of_not_inBank (by decide) hform rfl
  have hgenerate : stray.generate "" =
      .error (.config (.expanderPinWithoutBus (.expander ⟨0x20, .a, 1⟩))) := rfl
  have htexts : stray.HasTexts := by
    refine ⟨fun v hv => ?_, .inl rfl, .inl rfl⟩
    simp only [stray, Layout.toList, List.cons_append, List.nil_append, List.mem_cons,
      List.not_mem_nil, or_false] at hv
    rcases hv with rfl | rfl <;> exact ⟨_, rfl⟩
  have hraw := (errors_report_texts .nrf52 false "MI20_A9" stray "" _).1 (.inl hread)
  refine ⟨_, _, hread, hraw.2 fun p hp _ => ?_, htexts, hgenerate,
    (errors_report_texts .nrf52 false "MI20_A9" stray "" _).2 htexts hgenerate⟩
  rw [hform, Except.ok.injEq] at hp
  subst hp
  decide +kernel

theorem error_reports_other_text :
    ∃ e, Pin.readText .stm32 false "MI20_A_9" = .error (.config e) ∧
      e.raw ≠ .text "MI20_A_9" := by
  have hform : Pin.readExpander "MI20_A_9" = .ok ⟨0x20, .a, 9⟩ := rfl
  refine ⟨_, Pin.readText_of_not_inBank (by decide) hform rfl, fun h => ?_⟩
  have htext : (ExpanderPin.text ⟨0x20, .a, 9⟩) = "MI20_A9" := by decide +kernel
  rw [ConfigError.expanderIndex, ConfigError.raw, htext, LooseText.value_ofString,
    Value.text.injEq] at h
  revert h
  decide

end Board

end BoardWiring
