import BoardWiring.Proofs.Generation
import Mathlib.Tactic.Common

/-!
# The verdict on a board

What is wrong with a board can be listed without compiling it: `Board.faults` are its faults, in
the order in which they count.  The compiler reports the first of them, and compiles exactly the
boards without any.

* `Board.readFaults`, `Board.busFaults`, `Board.expanderFaults`, `Board.repeatFaults`,
  `Board.shapeFaults` and `Board.capabilityFaults` are the faults of each kind;
* `Outcome.Decides` says that a step reports the first of some faults, and `Outcome.Decides.bind`
  chains such steps;
* `Board.generate_verdict` is the verdict on every board whose entries are texts and whose numbers
  are short enough to be read and written (`Board.IsPlain`).
-/

namespace BoardWiring

/-! ### Steps that report the first of some faults -/

namespace Outcome

variable {α β : Type} {faults others : List ConfigError}

/-- A step that reports the first of some faults, and succeeds if there are none. -/
def Decides (faults : List ConfigError) (x : Except Failure α) : Prop :=
  match faults with
  | [] => ∃ a, x = .ok a
  | e :: _ => x = .error (.config e)

theorem decides_ok (a : α) : Decides [] (.ok a : Except Failure α) := ⟨a, rfl⟩

theorem decides_error (e : ConfigError) (es : List ConfigError) :
    Decides (e :: es) (.error (.config e) : Except Failure α) := rfl

theorem Decides.bind {x : Except Failure α} {f : α → Except Failure β} (hx : Decides faults x)
    (hf : ∀ a, x = .ok a → Decides others (f a)) : Decides (faults ++ others) (x >>= f) := by
  cases faults with
  | nil =>
    obtain ⟨a, rfl⟩ := hx
    exact hf a rfl
  | cons e es =>
    have hx' : x = .error (.config e) := hx
    rw [hx']
    exact decides_error e _

theorem Decides.ite {c : Prop} [Decidable c] {e : ConfigError} {x : Except Failure α}
    (hx : ¬c → Decides faults x) :
    Decides ((if c then [e] else []) ++ faults) (if c then .error (.config e) else x) := by
  by_cases hc : c
  · rw [if_pos hc, if_pos hc]
    exact decides_error e _
  · rw [if_neg hc, if_neg hc]
    exact hx hc

theorem decides_mapM {γ : Type} {f : γ → Except Failure α} {g : γ → List ConfigError} {xs : List γ}
    (h : ∀ x ∈ xs, Decides (g x) (f x)) : Decides (xs.flatMap g) (xs.mapM f) := by
  induction xs with
  | nil => exact decides_ok []
  | cons x xs ih =>
    rw [List.flatMap_cons, List.mapM_cons]
    refine Decides.bind (h x List.mem_cons_self) fun y _ => ?_
    have hxs := ih fun z hz => h z (List.mem_cons_of_mem _ hz)
    rw [← List.append_nil (xs.flatMap g)]
    exact Decides.bind hxs fun ys _ => decides_ok (y :: ys)

theorem decides_read {γ : Type} {f : γ → Except Failure α} {g : γ → List ConfigError}
    {l : Layout γ} (h : ∀ x ∈ l.toList, Decides (g x) (f x)) :
    Decides (l.toList.flatMap g) (l.read f) := by
  cases l with
  | matrix rows cols =>
    have hrows : Decides (rows.flatMap g) (rows.mapM f) :=
      decides_mapM fun x hx => h x (List.mem_append_left _ hx)
    have hcols : Decides (cols.flatMap g) (cols.mapM f) :=
      decides_mapM fun x hx => h x (List.mem_append_right _ hx)
    rw [Layout.toList, List.flatMap_append]
    refine Decides.bind hrows fun rs _ => ?_
    rw [← List.append_nil (cols.flatMap g)]
    exact Decides.bind hcols fun cs _ => decides_ok (Layout.matrix rs cs)
  | grid rows =>
    have hrows :
        Decides (rows.flatMap fun row => row.flatMap g) (rows.mapM fun row => row.mapM f) :=
      decides_mapM fun row hrow =>
        decides_mapM fun x hx => h x (List.mem_flatten_of_mem hrow hx)
    have hflat : rows.flatten.flatMap g = (rows.flatMap fun row => row.flatMap g) ++ [] := by
      rw [List.append_nil, ← List.flatMap_id, List.flatMap_assoc]
      rfl
    rw [Layout.toList, hflat]
    exact Decides.bind hrows fun rs _ => decides_ok (Layout.grid rs)

/-- A step decides if its own fault, should it have one, is the first of the list. -/
theorem decides_head? {x : Except Failure α} (h : faults.head?.map .config = fault? x) :
    Decides faults x := by
  cases x with
  | ok a =>
    rw [List.head?_eq_none_iff.1 (Option.map_eq_none_iff.1 h)]
    exact decides_ok a
  | error f =>
    obtain ⟨e, he, rfl⟩ := Option.map_eq_some_iff.1 h
    obtain ⟨es, rfl⟩ := List.head?_eq_some_iff.1 he
    exact decides_error e es

theorem fault?_ofConfig {x : Except ConfigError α} :
    fault? (Failure.ofConfig x) = (fault? x).map .config := by
  cases x <;> rfl

theorem decides_ofConfig {x : Except ConfigError α} (h : faults.head? = fault? x) :
    Decides faults (Failure.ofConfig x) :=
  decides_head? (by rw [h, fault?_ofConfig])

theorem Decides.error_of_head? {x : Except Failure α} {e : ConfigError} (hx : Decides faults x)
    (h : faults.head? = some e) : x = .error (.config e) := by
  obtain ⟨es, rfl⟩ := List.head?_eq_some_iff.1 h
  exact hx

theorem Decides.ok_iff {x : Except Failure α} (hx : Decides faults x) :
    (∃ a, x = .ok a) ↔ faults = [] := by
  cases faults with
  | nil => exact ⟨fun _ => rfl, fun _ => hx⟩
  | cons e es =>
    have hx' : x = .error (.config e) := hx
    simp [hx']

end Outcome

namespace Board

open Outcome

/-! ### Faults -/

/-- The fault of an entry for a key. -/
def entryFault? (family : Family) (absent : Bool) : Value → Option ConfigError
  | .text raw => Pin.textFault? family absent raw
  | .torn t => some (Pin.tornFault family t)
  | _ => none

/-- Entries for keys that are no pins. -/
def readFaults (b : Board) : List ConfigError :=
  b.keys.layout.toList.flatMap fun v => (entryFault? b.family b.keys.layout.isGrid v).toList

/-- The entry for a pin of the bus is missing or empty. -/
def isMissing : Value → Bool
  | .null => true
  | .text raw => raw == ""
  | _ => false

/-- The fault of an entry that is no pin of the microcontroller. -/
def onChipFault? (family : Family) : Value → Option ConfigError
  | .text raw =>
    match Pin.textFault? family false raw with
    | some e => some e
    | none =>
      match Pin.ofEntry family false (.text raw) with
      | .mcu _ _ => none
      | _ => some (.notOnChip raw)
  | .torn t => some (Pin.tornFault family t)
  | _ => none

/-- The fault of a frequency: the nRF52 has three, the other families any positive one. -/
def frequencyFault? (family : Family) : Value → Option ConfigError
  | .int f =>
    if family = .nrf52 then
      if f = 100 ∨ f = 250 ∨ f = 400 then none
      else some (.invalidFrequency (.int f) (some family) [.int 100, .int 250, .int 400])
    else if f ≤ 0 then some (.invalidFrequency (.int f) (some family) [])
    else none
  | _ => none

/-- Faults of the pins and the frequency of a bus. -/
def planFaults (family : Family) (s : BusSettings) : List ConfigError :=
  (if isMissing s.sda then [.invalid "I2C SDA pin not set"] else []) ++
    ((if isMissing s.scl then [.invalid "I2C SCL pin not set"] else []) ++
      ((onChipFault? family s.sda).toList ++ ((onChipFault? family s.scl).toList ++
        (frequencyFault? family s.frequency).toList)))

/-- The fault of an expander at an address that it cannot have. -/
def addressFaults (s : BusSettings) : List ConfigError :=
  if s.expander ∧ ¬(0x20 ≤ s.address ∧ s.address ≤ 0x27) then
    [.expanderAddress ("0x" ++ Digits.hexByte s.address)]
  else []

/-- Faults of the bus. -/
def busFaults (b : Board) : List ConfigError :=
  if b.bus.enabled = false then []
  else if b.family = .esp32 then
    if b.bus.expander then [.expanderWithoutBus b.family] else []
  else planFaults b.family b.bus ++ addressFaults b.bus

/-- Expander pins on a board without a bus that works. -/
def expanderFaults (b : Board) : List ConfigError :=
  if b.bus.enabled = false ∨ b.family = .esp32 then
    (b.pins.toList.filter Pin.isExpander).map .expanderPinWithoutBus
  else []

/-- Pins taken a second time, those of the bus before those of the keys. -/
def repeatFaults (b : Board) : List ConfigError :=
  ((b.busPins ++ b.pins.toList).zipIdx.filter
    (Emit.isRepeat (b.busPins ++ b.pins.toList))).map fun q => .repeated q.1

/-- Rows of a grid that are not as long as the first. -/
def shapeFaults (b : Board) : List ConfigError :=
  match b.pins with
  | .matrix _ _ => []
  | .grid rows =>
    (rows.zipIdx.filter fun r => r.1.length != (rows.headD []).length).map fun r =>
      .raggedRow r.2 r.1.length (rows.headD []).length

/-- Inputs that cannot wake the processor though they have to. -/
def capabilityFaults (b : Board) : List ConfigError :=
  if b.keys.interrupt then b.pins.inputs.flatMap fun p => (Emit.capabilityFault? b.family p).toList
  else []

/-- The faults of a board, in the order in which they count. -/
def faults (b : Board) : List ConfigError :=
  b.readFaults ++ (b.busFaults ++ (b.expanderFaults ++ (b.repeatFaults ++
    (b.shapeFaults ++ b.capabilityFaults))))

/-- An entry is a text, and if it is a string that has the form of an expander pin, then its index
is short enough to be read. -/
inductive IsPinText : Value → Prop where
  | string {raw : String} (short : Pin.IsShort raw) : IsPinText (.text raw)
  | torn (t : TornText) : IsPinText (.torn t)

/-- The entries of a board are of the kinds that a description gives: pins are texts, the pins and
the frequency of the bus may be left out, and numbers are short enough to be read and written. -/
structure IsPlain (b : Board) : Prop where
  entries : ∀ v ∈ b.keys.layout.toList, IsPinText v
  sda : b.bus.sda = .null ∨ IsPinText b.bus.sda
  scl : b.bus.scl = .null ∨ IsPinText b.bus.scl
  frequency : b.bus.frequency = .null ∨
    ∃ f, b.bus.frequency = .int f ∧ Digits.isWritable f = true

/-! ### Stages -/

section Stages

variable {b : Board} {family : Family} {absent shared : Bool} {s : BusSettings} {v : Value}

theorem decides_text {raw : String} (hs : Pin.IsShort raw) :
    Decides (Pin.textFault? family absent raw).toList (Pin.readText family absent raw) := by
  cases hf : Pin.textFault? family absent raw with
  | none =>
    obtain ⟨p, hp⟩ := Pin.spelt_of_no_fault hs hf
    exact ⟨p, Pin.readText_eq_ok_iff.2 hp⟩
  | some e => exact Pin.readText_of_fault hf

theorem readLayout_decides (h : b.IsPlain) : Decides b.readFaults b.readLayout := by
  refine decides_read fun v hv => ?_
  cases h.entries v hv with
  | string short => exact decides_text short
  | torn t => exact Pin.read_torn t

theorem decides_readOnChip (h : v = .null ∨ IsPinText v) (hthere : ¬isMissing v = true) :
    Decides (onChipFault? family v).toList (Pin.readOnChip family v) := by
  rcases h with rfl | @⟨raw, hs⟩ | t
  · exact absurd rfl hthere
  · cases hf : Pin.textFault? family false raw with
    | some e =>
      have hread : Pin.read family false (.text raw) = .error (.config e) :=
        Pin.readText_of_fault hf
      rw [onChipFault?, hf, Pin.readOnChip, hread]
      rfl
    | none =>
      obtain ⟨p, hp⟩ := Pin.spelt_of_no_fault hs hf
      have hread : Pin.read family false (.text raw) = .ok p := Pin.readText_eq_ok_iff.2 hp
      rw [onChipFault?, hf, Pin.readOnChip, hread, ok_bind, Pin.ofEntry_of_read hread]
      cases p with
      | mcu name n => exact ⟨_, rfl⟩
      | expander e => rfl
      | absent => exact absurd rfl hp.ne_absent
  · rw [onChipFault?, Pin.readOnChip, Pin.read_torn]
    rfl

/-- A frequency is accepted unless it has a fault, and it can be written in either case. -/
theorem frequency_cases (family : Family)
    (h : v = .null ∨ ∃ f, v = .int f ∧ Digits.isWritable f = true) :
    (∃ e, frequencyFault? family v = some e ∧ Bus.frequency family v = .error e ∧
      e.raw.isWritable = true) ∨
    (∃ f, frequencyFault? family v = none ∧ Bus.frequency family v = .ok f ∧
      Digits.isWritable f = true) := by
  rcases h with rfl | ⟨f, rfl, hw⟩
  · exact Or.inr ⟨_, rfl, rfl, Digits.isWritable_of_lt (by decide)⟩
  · unfold frequencyFault? Bus.frequency
    by_cases hfamily : family = .nrf52
    · by_cases hf : f = 100 ∨ f = 250 ∨ f = 400
      · exact Or.inr ⟨f, by simp [hfamily, hf], by simp [hfamily, Bus.fixedFrequencies, hf], hw⟩
      · exact Or.inl ⟨.invalidFrequency (.int f) (some family) [.int 100, .int 250, .int 400],
          by simp [hfamily, hf], by simp [hfamily, Bus.fixedFrequencies, hf], hw⟩
    · by_cases hf : f ≤ 0
      · exact Or.inl ⟨.invalidFrequency (.int f) (some family) [], by simp [hfamily, hf],
          by simp [hfamily, hf], hw⟩
      · exact Or.inr ⟨f, by simp [hfamily, hf], by simp [hfamily, hf], hw⟩

theorem not_holds_eq (h : v = .null ∨ IsPinText v) : (!v.holds) = isMissing v := by
  rcases h with rfl | ⟨-⟩ | t
  · rfl
  · simp [isMissing, Value.holds, bne]
  · rfl

theorem plan_decides (h : b.IsPlain) :
    Decides (planFaults family b.bus) (Bus.plan family b.bus) := by
  unfold planFaults Bus.plan
  simp only [not_holds_eq h.sda, not_holds_eq h.scl]
  refine Decides.ite fun hsda => Decides.ite fun hscl => ?_
  refine Decides.bind (decides_readOnChip h.sda hsda) fun sda _ => ?_
  refine Decides.bind (decides_readOnChip h.scl hscl) fun scl _ => ?_
  rcases frequency_cases family h.frequency with
    ⟨e, hfault, hf, hw⟩ | ⟨f, hfault, hf, -⟩
  · simp only [hfault, hf, hw]
    rfl
  · simp only [hfault, hf]
    exact decides_ok _

theorem writable_of_plan (h : b.IsPlain) {p : Bus.Plan} (hp : Bus.plan family b.bus = .ok p) :
    Digits.isWritable p.frequency = true := by
  obtain ⟨-, -, hf⟩ := Bus.plan_eq_ok_iff.1 hp
  rcases frequency_cases family h.frequency with ⟨e, -, herr, -⟩ | ⟨f, -, hok, hw⟩
  · cases herr.symm.trans hf
  · cases hok.symm.trans hf
    exact hw

theorem buildSupported_decides (h : b.IsPlain) :
    Decides (planFaults family b.bus ++ addressFaults b.bus)
      (Bus.buildSupported family b.bus shared) := by
  refine Decides.bind (plan_decides h) fun p hp => ?_
  simp only [Bus.checkWritable, writable_of_plan h hp, if_true, ok_bind]
  cases hx : b.bus.expander with
  | false =>
    have hnone : addressFaults b.bus = [] := if_neg (by simp [hx])
    rw [hnone]
    cases shared with
    | false => exact decides_ok _
    | true => exact decides_ok _
  | true =>
    have hiff : ExpanderPin.isAddress b.bus.address = true ↔
        0x20 ≤ b.bus.address ∧ b.bus.address ≤ 0x27 := by
      rw [ExpanderPin.isAddress, Bool.and_eq_true, decide_eq_true_iff, decide_eq_true_iff]
      rfl
    by_cases ha : ExpanderPin.isAddress b.bus.address = true
    · have hnone : addressFaults b.bus = [] := if_neg fun hbad => hbad.2 (hiff.1 ha)
      simp only [hnone, Bus.expander_eq_ok ha, if_true]
      exact decides_ok _
    · have hbad : addressFaults b.bus =
          [.expanderAddress ("0x" ++ Digits.hexByte b.bus.address)] :=
        if_pos ⟨hx, fun hrange => ha (hiff.2 hrange)⟩
      simp only [hbad, Bus.expander_eq_error (by simpa using ha), if_true]
      exact decides_error _ _

theorem build_decides (h : b.IsPlain) :
    Decides b.busFaults (Bus.build b.family b.bus shared) := by
  unfold busFaults Bus.build
  cases hon : b.bus.enabled with
  | false => exact decides_ok _
  | true =>
    simp only [Bool.true_eq_false, if_false, Bool.not_true, Bool.false_eq_true]
    by_cases hfamily : b.family = .esp32
    · cases hx : b.bus.expander with
      | false =>
        simp only [hfamily, Bus.isSupported, if_true, Bool.false_eq_true, if_false]
        exact decides_ok _
      | true =>
        simp only [hfamily, Bus.isSupported, if_true, Bool.false_eq_true, if_false]
        exact decides_error _ _
    · have hsupported : Bus.isSupported b.family = true := by
        cases hf : b.family <;> first | rfl | exact absurd hf hfamily
      simp only [hfamily, hsupported, if_false, if_true]
      exact buildSupported_decides h

theorem head?_expanderFaults {bus : Fragment}
    (hbus : Bus.Built b.family b.bus shared bus) :
    b.expanderFaults.head? = fault? (checkExpanders bus b.pins.toList) := by
  have hiff : (b.bus.enabled = false ∨ b.family = .esp32) ↔ Bus.isUsable bus = false := by
    rw [hbus.isUsable_eq]
    cases b.bus.enabled <;> cases b.family <;> simp [Bus.isSupported]
  unfold expanderFaults checkExpanders
  by_cases hoff : b.bus.enabled = false ∨ b.family = .esp32
  · rw [if_pos hoff, hiff.1 hoff, List.head?_map, List.head?_filter]
    cases b.pins.toList.find? Pin.isExpander <;> rfl
  · have husable : Bus.isUsable bus = true := by simpa using fun h => hoff (hiff.2 h)
    rw [if_neg hoff, husable]
    cases b.pins.toList.find? Pin.isExpander <;> rfl

theorem isWritable_of_mem {p : Pin} (h : p ∈ b.busPins ++ b.pins.toList) :
    p.isWritable = true := by
  rcases List.mem_append.1 h with h | h
  · unfold busPins Bus.pins at h
    split_ifs at h
    · have hentries : ∀ q ∈ [Pin.ofEntry b.family false b.bus.sda,
          Pin.ofEntry b.family false b.bus.scl], q.isWritable = true := by
        simp [Pin.isWritable_ofEntry]
      exact hentries p h
    · cases h
  · rw [pins, Layout.toList_map] at h
    obtain ⟨v, -, rfl⟩ := List.mem_map.1 h
    exact Pin.isWritable_ofEntry _ _ v

theorem head?_repeatFaults : b.repeatFaults.head?.map .config =
    fault? (Emit.checkUnique (b.busPins ++ b.pins.toList)) := by
  unfold repeatFaults Emit.checkUnique
  rw [List.head?_map, List.head?_filter, Emit.firstRepeat?_eq_find?]
  cases hfound : (b.busPins ++ b.pins.toList).zipIdx.find? _ with
  | none => rfl
  | some q =>
    have hmem : q.1 ∈ b.busPins ++ b.pins.toList :=
      List.fst_mem_of_mem_zipIdx (List.mem_of_find?_eq_some hfound)
    simp only [Option.map_some, Pin.blamed_of_isWritable (isWritable_of_mem hmem), fault?]

theorem head?_shapeFaults : b.shapeFaults.head? = Emit.raggedFault? b.pins := by
  unfold shapeFaults Emit.raggedFault?
  cases b.pins with
  | matrix rows cols => rfl
  | grid rows =>
    simp only [List.head?_map, List.head?_filter, Emit.firstRagged?, Option.map_map]
    rfl

/-- The emitters carry on past these faults; they come to light when the statements are checked. -/
theorem head?_capabilityFaults {bus : Fragment}
    (hbus : Bus.Built b.family b.bus shared bus) :
    b.capabilityFaults.head? = fault? (Fragment.check [bus,
      Emit.statements b.family b.keys.interrupt b.keys.activeLow b.pins]) := by
  have hcarried : b.capabilityFaults =
      (Emit.statements b.family b.keys.interrupt b.keys.activeLow b.pins).diagnostics := by
    rw [Emit.diagnostics_statements, capabilityFaults]
    cases b.keys.interrupt with
    | false => simp [Role.inputFor, Emit.roleFault?]
    | true => rfl
  rw [hcarried]
  simp only [Fragment.check, Fragment.firstDiagnostic?, List.findSome?_cons, hbus.diagnostics_eq,
    List.head?_nil, List.findSome?_nil]
  cases (Emit.statements b.family b.keys.interrupt b.keys.activeLow b.pins).diagnostics <;> rfl

end Stages

/-! ### Plain boards -/

/-- A text of few characters. -/
def isShortText : Value → Bool
  | .text raw => decide (raw.length ≤ Digits.limit)
  | _ => false

/-- An integer of few digits. -/
def isShortInt : Value → Bool
  | .int i => decide (i.natAbs < 10 ^ 9)
  | _ => false

/-- A check that a board is plain, for boards on which every entry is short as a whole. -/
def checkPlain (b : Board) : Bool :=
  b.keys.layout.toList.all isShortText && (b.bus.sda.isNull || isShortText b.bus.sda) &&
    (b.bus.scl.isNull || isShortText b.bus.scl) &&
    (b.bus.frequency.isNull || isShortInt b.bus.frequency)

theorem isPinText_of_isShortText {v : Value} (h : isShortText v = true) : IsPinText v := by
  cases v with
  | text raw => exact .string (Pin.isShort_of_length_le (of_decide_eq_true h))
  | _ => cases h

theorem isWritable_of_isShortInt {v : Value} (h : isShortInt v = true) :
    ∃ f, v = .int f ∧ Digits.isWritable f = true := by
  cases v with
  | int f => exact ⟨f, rfl, Digits.isWritable_of_lt (of_decide_eq_true h)⟩
  | _ => cases h

theorem null_of_isNull {v : Value} (h : v.isNull = true) : v = .null := by
  cases v with
  | null => rfl
  | _ => cases h

theorem isPlain_of_check {b : Board} (h : b.checkPlain = true) : b.IsPlain := by
  simp only [checkPlain, Bool.and_eq_true, Bool.or_eq_true, List.all_eq_true] at h
  obtain ⟨⟨⟨hentries, hsda⟩, hscl⟩, hfrequency⟩ := h
  exact ⟨fun v hv => isPinText_of_isShortText (hentries v hv),
    hsda.imp null_of_isNull isPinText_of_isShortText,
    hscl.imp null_of_isNull isPinText_of_isShortText,
    hfrequency.imp null_of_isNull isWritable_of_isShortInt⟩

/-! ### The verdict -/

/-- Compiling a board reports the first of its faults, if the board is plain. -/
theorem generate_decides {b : Board} (h : b.IsPlain) (source : String) :
    Decides b.faults (b.generate source) := by
  unfold faults generate
  refine Decides.bind (readLayout_decides h) fun layout hlayout => ?_
  have hread := Layout.read_ok hlayout
  rw [readLayout_eq hread, Except.ok.injEq] at hlayout
  subst hlayout
  refine Decides.bind (build_decides h) fun bus hbus => ?_
  have hbuilt := Bus.build_eq_ok_iff.1 hbus
  refine Decides.bind (decides_ofConfig (head?_expanderFaults hbuilt)) fun _ _ => ?_
  rw [hbuilt.claimedPins_eq, ok_bind]
  refine Decides.bind (decides_head? head?_repeatFaults) fun _ hunique => ?_
  have hunique' := Emit.checkUnique_eq_ok_iff.1 hunique
  have hlayout : fault? (Emit.layout b.family b.pins b.keys.interrupt b.keys.activeLow) =
      (Emit.raggedFault? b.pins).map .config ∧ ∀ f,
        Emit.layout b.family b.pins b.keys.interrupt b.keys.activeLow = .ok f →
          f = Emit.statements b.family b.keys.interrupt b.keys.activeLow b.pins := by
    rw [Emit.layout_eq (sound_pins hread) (sublist_unique hunique')]
    cases Emit.raggedFault? b.pins with
    | none => exact ⟨rfl, fun f hf => by cases hf; rfl⟩
    | some e => exact ⟨rfl, fun f hf => by cases hf⟩
  refine Decides.bind (decides_head? (by rw [head?_shapeFaults, hlayout.1])) fun pins hpins => ?_
  rw [hlayout.2 pins hpins, ← List.append_nil b.capabilityFaults]
  exact Decides.bind (decides_ofConfig (head?_capabilityFaults hbuilt)) fun _ _ => decides_ok _

/-- A plain board without faults is compiled. -/
theorem exists_unit {b : Board} (h : b.checkPlain = true) (hfaults : b.faults = [])
    (source : String) : ∃ u, b.generate source = .ok u :=
  (generate_decides (isPlain_of_check h) source).ok_iff.2 hfaults

/-- **The compiler reports the first fault of a board, and compiles exactly the boards without
faults.** -/
theorem generate_verdict {b : Board} (h : b.IsPlain) (source : String) :
    (∀ e, b.faults.head? = some e → b.generate source = .error (.config e)) ∧
      ((∃ u, b.generate source = .ok u) ↔ b.faults = []) :=
  ⟨fun _ he => (generate_decides h source).error_of_head? he, (generate_decides h source).ok_iff⟩

/-- A board on which one pin serves twice, and two inputs cannot wake the processor. -/
def crowded : Board where
  name := "crowded"
  chip := "STM32F411CE"
  family := .stm32
  keys := ⟨.matrix [.text "PA0", .text "PB16", .text "MI20_A0"] [.text "PA0"], true, true⟩
  bus := ⟨true, .text "PB7", .text "PB6", .int 400, false, 0x20⟩

/-- Of its three faults, the pin that serves twice is the one reported. -/
theorem generate_verdict_crowded :
    crowded.IsPlain ∧
      crowded.faults = [.repeated (.mcu "PA0" 0), .noInterruptLine "PB16" 16,
        .expanderInterrupt ⟨0x20, .a, 0⟩] ∧
      crowded.generate "" = .error (.config (.repeated (.mcu "PA0" 0))) := by
  have hfaults : crowded.faults = [.repeated (.mcu "PA0" 0), .noInterruptLine "PB16" 16,
      .expanderInterrupt ⟨0x20, .a, 0⟩] := rfl
  have hplain : crowded.IsPlain := isPlain_of_check (by decide)
  exact ⟨hplain, hfaults, (generate_verdict hplain "").1 _ (by rw [hfaults]; rfl)⟩

end Board

end BoardWiring
