import BoardWiring.Bus
import BoardWiring.Proofs.PinReading

/-!
# What the bus builder gives

The statements for a bus are one of three: none, the stand-in of a family without support, or a
constructor that the sharing and the expander follow.

* `Bus.plan_eq_ok_iff` says when the settings of a bus can be used;
* `Bus.Built` lists the three outcomes, and `Bus.build_eq_ok_iff` says that there are no others;
* `Bus.Built.isUsable_eq` and `Bus.Built.claimedPins_eq` say that the emptiness and the mark of
  the statements tell which bus works and which pins it takes.
-/

namespace BoardWiring

open Outcome

namespace Failure

theorem ofConfig_eq_ok_iff {α : Type} {x : Except ConfigError α} {a : α} :
    ofConfig x = .ok a ↔ x = .ok a := by
  cases x with
  | ok b => simp [ofConfig]
  | error e => simp [ofConfig]

end Failure

namespace Pin

/-- The pin that an entry is read as; an entry that is none counts as absent. -/
def ofEntry (family : Family) (absent : Bool) (v : Value) : Pin :=
  match read family absent v with
  | .ok p => p
  | .error _ => .absent

variable {family : Family} {absent : Bool} {v : Value} {p : Pin}

theorem ofEntry_of_read (h : read family absent v = .ok p) : ofEntry family absent v = p := by
  rw [ofEntry, h]

theorem ofEntry_of_readOnChip (h : readOnChip family v = .ok p) : ofEntry family false v = p := by
  obtain ⟨raw, n, rfl, rfl, hs⟩ := readOnChip_eq_ok_iff.1 h
  exact ofEntry_of_read (read_eq_ok_iff.2 ⟨raw, rfl, hs⟩)

theorem isWritable_ofEntry (family : Family) (absent : Bool) (v : Value) :
    (ofEntry family absent v).isWritable = true := by
  unfold ofEntry
  split
  · rename_i p hp
    obtain ⟨raw, rfl, hs⟩ := read_eq_ok_iff.1 hp
    by_cases habsent : p = .absent
    · rw [habsent, isWritable_absent]
    · exact isWritable_of_isSound (hs.isSound habsent)
  · rfl

/-- The pins of the chip in a list have names of a family, and the numbers that these give. -/
def AreNamed (family : Family) (ps : List Pin) : Prop :=
  ∀ name i, Pin.mcu name i ∈ ps → ∃ n : Nat, i = n ∧ Grammar.number? family name.toList = some n

theorem Spelt.number? {raw name : String} {i : Int} (h : Spelt family absent raw (.mcu name i)) :
    ∃ n : Nat, i = n ∧ Grammar.number? family name.toList = some n := by
  cases h with
  | mcu _ _ number => exact ⟨_, rfl, number⟩

theorem holds_of_readOnChip (h : readOnChip family v = .ok p) : v.holds = true := by
  obtain ⟨raw, n, rfl, rfl, hs⟩ := readOnChip_eq_ok_iff.1 h
  cases hs with
  | mcu _ _ number =>
    by_contra hempty
    have hraw : raw = "" := by simpa [Value.holds] using hempty
    subst hraw
    revert number
    cases family <;> simp [Grammar.number?, Grammar.body, Grammar.nameNumber?]

end Pin

namespace Bus

variable {family : Family} {s : BusSettings} {shared : Bool} {bus : Fragment}

/-- **The settings can be used if and only if both pins are pins of the microcontroller and the
frequency is accepted.** -/
theorem plan_eq_ok_iff {p : Plan} :
    plan family s = .ok p ↔ Pin.readOnChip family s.sda = .ok p.sda ∧
      Pin.readOnChip family s.scl = .ok p.scl ∧ frequency family s.frequency = .ok p.frequency := by
  constructor
  · intro h
    unfold plan at h
    split_ifs at h
    obtain ⟨sda, hsda, h⟩ := bind_eq_ok_iff.1 h
    obtain ⟨scl, hscl, h⟩ := bind_eq_ok_iff.1 h
    cases hf : frequency family s.frequency with
    | ok f =>
      simp only [hf] at h
      cases h
      exact ⟨hsda, hscl, rfl⟩
    | error e => simp [hf] at h
  · rintro ⟨hsda, hscl, hf⟩
    simp [plan, Pin.holds_of_readOnChip hsda, Pin.holds_of_readOnChip hscl, hsda, hscl, hf]

/-- The statements that construct the expander at an address. -/
def expanderStatements (address : Int) : Fragment :=
  match Expander.bringUp address with
  | .ok lines => Fragment.ofLines lines ["mcp23x17", "ge"]
  | .error _ => .empty

/-- The statements for a bus that can be constructed. -/
def statements (family : Family) (p : Plan) (s : BusSettings) (shared : Bool) : Fragment :=
  Fragment.ofLines (construct family p) ["i2c"] ++
    (if s.expander || shared then sharing else .empty) ++
    (if s.expander then expanderStatements s.address else .empty)

theorem lines_statements (family : Family) (p : Plan) (s : BusSettings) (shared : Bool) :
    (statements family p s shared).lines = construct family p ++
      ((if s.expander || shared then [Expander.sharedBusStatement] else []) ++
        if s.expander then (expanderStatements s.address).lines else []) := by
  unfold statements
  cases s.expander <;> cases shared <;> simp [Fragment.ofLines, sharing, Fragment.empty]

/-- The outcomes of building a bus. -/
inductive Built (family : Family) (s : BusSettings) (shared : Bool) : Fragment → Prop where
  | disabled (off : s.enabled = false) : Built family s shared .empty
  | unsupported (on : s.enabled = true) (family_unsupported : isSupported family = false)
      (bare : s.expander = false) : Built family s shared (standIn family)
  | constructed {p : Plan} (on : s.enabled = true) (family_supported : isSupported family = true)
      (settings : plan family s = .ok p) (short : Digits.isWritable p.frequency = true)
      (address : s.expander = true → ExpanderPin.isAddress s.address = true) :
      Built family s shared (statements family p s shared)

theorem expander_eq_ok (h : ExpanderPin.isAddress s.address = true) :
    expander s.address = .ok (expanderStatements s.address) := by
  simp [expander, expanderStatements, Expander.bringUp, h]

theorem expander_eq_error (h : ExpanderPin.isAddress s.address = false) :
    expander s.address = .error (.expanderAddress ("0x" ++ Digits.hexByte s.address)) := by
  simp [expander, Expander.bringUp, h]

theorem buildSupported_eq_ok_iff :
    buildSupported family s shared = .ok bus ↔
      ∃ p, plan family s = .ok p ∧ Digits.isWritable p.frequency = true ∧
        (s.expander = true → ExpanderPin.isAddress s.address = true) ∧
        bus = statements family p s shared := by
  constructor
  · intro h
    obtain ⟨p, hp, h⟩ := bind_eq_ok_iff.1 h
    obtain ⟨_, hshort, h⟩ := bind_eq_ok_iff.1 h
    have hshort' : Digits.isWritable p.frequency = true := by
      by_contra hno
      simp [checkWritable, hno] at hshort
    refine ⟨p, hp, hshort', ?_⟩
    cases hx : s.expander with
    | false =>
      simp only [hx, Bool.false_eq_true, if_false] at h
      cases hs : shared <;> simp_all [statements]
    | true =>
      simp only [hx, if_true] at h
      cases ha : ExpanderPin.isAddress s.address with
      | false => simp [expander_eq_error ha] at h
      | true =>
        simp only [expander_eq_ok ha, pure_eq_ok, Except.ok.injEq] at h
        exact ⟨fun _ => rfl, by simp [statements, hx, ← h]⟩
  · rintro ⟨p, hp, hshort, haddress, rfl⟩
    simp only [buildSupported, hp, ok_bind, checkWritable, if_pos hshort]
    cases hx : s.expander with
    | false => cases shared <;> simp [statements, hx]
    | true => simp [statements, hx, expander_eq_ok (haddress hx)]

/-- **A bus is built in one of three ways.** -/
theorem build_eq_ok_iff : build family s shared = .ok bus ↔ Built family s shared bus := by
  constructor
  · intro h
    unfold build at h
    cases hon : s.enabled with
    | false =>
      simp only [hon, Bool.not_false, if_true, Except.ok.injEq] at h
      exact h ▸ .disabled hon
    | true =>
      cases hfam : isSupported family with
      | false =>
        cases hx : s.expander with
        | false =>
          simp only [hon, hfam, hx, Bool.not_true, Bool.false_eq_true, if_false,
            Except.ok.injEq] at h
          exact h ▸ .unsupported hon hfam hx
        | true => simp [hon, hfam, hx] at h
      | true =>
        simp only [hon, hfam, Bool.not_true, Bool.false_eq_true, if_false, if_true] at h
        obtain ⟨p, hp, hshort, haddress, rfl⟩ := buildSupported_eq_ok_iff.1 h
        exact .constructed hon hfam hp hshort haddress
  · rintro (hon | ⟨hon, hfam, hx⟩ | ⟨hon, hfam, hp, hshort, haddress⟩)
    · simp [build, hon]
    · simp [build, hon, hfam, hx]
    · simp only [build, hon, hfam, Bool.not_true, Bool.false_eq_true, if_false, if_true]
      exact buildSupported_eq_ok_iff.2 ⟨_, hp, hshort, haddress, rfl⟩

theorem construct_ne_nil (h : isSupported family = true) (p : Plan) : construct family p ≠ [] := by
  cases family with
  | esp32 => cases h
  | _ => simp [construct]

theorem unsupported_expanderStatements (address : Int) :
    (expanderStatements address).unsupported = false := by
  unfold expanderStatements
  split <;> rfl

theorem diagnostics_expanderStatements (address : Int) :
    (expanderStatements address).diagnostics = [] := by
  unfold expanderStatements
  split <;> rfl

/-- The statements of a bus tell whether it works. -/
theorem Built.isUsable_eq (h : Built family s shared bus) :
    isUsable bus = (s.enabled && isSupported family) := by
  cases h with
  | disabled off => simp [isUsable, Fragment.isEmpty, Fragment.empty, off]
  | unsupported on hfam => simp [isUsable, standIn, hfam]
  | constructed on hfam =>
    rename_i p _ _ _
    have hlines : (statements family p s shared).isEmpty = false := by
      simp [Fragment.isEmpty, statements, Fragment.ofLines, construct_ne_nil hfam p]
    have hmark : (statements family p s shared).unsupported = false := by
      cases hx : s.expander <;> cases shared <;>
        simp [statements, hx, Fragment.ofLines, sharing, Fragment.empty,
          unsupported_expanderStatements]
    simp [isUsable, hlines, hmark, on, hfam]

theorem Built.diagnostics_eq (h : Built family s shared bus) : bus.diagnostics = [] := by
  cases h with
  | disabled => rfl
  | unsupported => rfl
  | constructed =>
    cases hx : s.expander <;> cases shared <;>
      simp [statements, hx, Fragment.ofLines, sharing, Fragment.empty,
        diagnostics_expanderStatements]

/-- The pins that a bus takes: data and clock, if the bus works. -/
def pins (family : Family) (s : BusSettings) : List Pin :=
  if s.enabled && isSupported family then
    [Pin.ofEntry family false s.sda, Pin.ofEntry family false s.scl]
  else []

/-- The pins that the statements of a bus take are those of its settings. -/
theorem Built.claimedPins_eq (h : Built family s shared bus) :
    claimedPins family s bus = .ok (pins family s) := by
  unfold claimedPins pins
  rw [h.isUsable_eq]
  cases h with
  | disabled off => simp [off]
  | unsupported _ hfam => simp [hfam]
  | constructed on hfam hp =>
    obtain ⟨hsda, hscl, -⟩ := plan_eq_ok_iff.1 hp
    simp [on, hfam, hsda, hscl, Pin.ofEntry_of_readOnChip hsda, Pin.ofEntry_of_readOnChip hscl]

theorem Built.areNamed (h : Built family s shared bus) : Pin.AreNamed family (pins family s) := by
  intro name i hmem
  cases h with
  | disabled off => simp [pins, off] at hmem
  | unsupported _ hfam => simp [pins, hfam] at hmem
  | constructed on hfam settings =>
    obtain ⟨hsda, hscl, -⟩ := plan_eq_ok_iff.1 settings
    have hchip : ∀ {v : Value} {p : Pin}, Pin.readOnChip family v = .ok p →
        .mcu name i = p → ∃ n : Nat, i = n ∧ Grammar.number? family name.toList = some n := by
      rintro v p hread rfl
      obtain ⟨raw, n, hp, hn⟩ := Pin.named_of_readOnChip hread
      cases hp
      exact ⟨n, rfl, hn⟩
    simp only [pins, on, hfam, Bool.and_self, if_true, Pin.ofEntry_of_readOnChip hsda,
      Pin.ofEntry_of_readOnChip hscl, List.mem_cons, List.not_mem_nil, or_false] at hmem
    rcases hmem with hp | hp
    · exact hchip hsda hp
    · exact hchip hscl hp

end Bus

end BoardWiring
