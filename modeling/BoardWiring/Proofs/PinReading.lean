import BoardWiring.Proofs.Numerals
import BoardWiring.Proofs.Outcome
import BoardWiring.Pin.Reader

/-!
# Which texts are read as pins

`Pin.Spelt` says which pin a text stands for, case by case, and the readers of the compiler give
exactly that pin.

* `Pin.readText_eq_ok_iff`, `Pin.read_eq_ok_iff` and `Pin.readOnChip_eq_ok_iff` say when an entry
  is accepted, and as which pin;
* `Pin.isWritable_of_readExpander` and `Grammar.number?_lt` say that a pin that has been read can be
  written, and that its number is small;
* `Pin.readText_faults` says that a text that is no pin is refused with a configuration error,
  unless it has the form of an expander pin with an index too long to be read.
-/

namespace BoardWiring

namespace ExpanderPin

theorem inBank_iff {e : ExpanderPin} : e.inBank = true ↔ 0 ≤ e.index ∧ e.index ≤ 7 := by
  have hsize : bankSize = 8 := rfl
  rw [inBank, Bool.and_eq_true, decide_eq_true_eq, decide_eq_true_eq, hsize]
  omega

theorem isAddress_iff {address : Int} :
    isAddress address = true ↔ 0x20 ≤ address ∧ address ≤ 0x27 := by
  rw [isAddress, Bool.and_eq_true, decide_eq_true_eq, decide_eq_true_eq]
  rfl

/-- The number of a pin that can be written is refused with a configuration error, if at all. -/
theorem number_eq {p : ExpanderPin} (h : (Pin.expander p).isWritable = true) :
    p.number =
      if p.inBank then .ok (p.bank.offset + p.index) else .error (.config (.expanderIndex p)) := by
  rw [number, Pin.blamed_of_isWritable h]

theorem isWritable_of_inBank {p : ExpanderPin} (h : p.inBank = true) :
    (Pin.expander p).isWritable = true := by
  obtain ⟨hmin, hmax⟩ := inBank_iff.1 h
  exact Digits.isWritable_of_lt (by omega)

end ExpanderPin

namespace Grammar

theorem shortNumber?_lt {ds : List Char} {n : Nat} (h : shortNumber? ds = some n) : n < 100 := by
  unfold shortNumber? at h
  split at h
  · rename_i c
    split_ifs at h with hdigit
    cases h
    have hle : c.toNat ≤ 57 := hdigit.2
    omega
  · rename_i c d
    split_ifs at h with hdigit
    obtain ⟨v, hv, rfl⟩ := Option.map_eq_some_iff.1 h
    have hlt := Text.digitValue?_lt hv
    have hle : c.toNat ≤ 57 := hdigit.2
    omega
  · cases h

theorem twoDigits?_lt {ds : List Char} {n : Nat} (h : twoDigits? ds = some n) : n < 100 := by
  unfold twoDigits? at h
  split at h
  · simp only [Option.bind_eq_bind, Option.bind_eq_some_iff] at h
    obtain ⟨m, hm, k, hk, h⟩ := h
    cases h
    have hmlt := Text.digitValue?_lt hm
    have hklt := Text.digitValue?_lt hk
    omega
  · cases h

theorem number?_lt {family : Family} {cs : List Char} {n : Nat}
    (h : number? family cs = some n) : n < 100 := by
  unfold number? nameNumber? at h
  split at h
  · split_ifs at h
    exact shortNumber?_lt h
  · split_ifs at h
    exact twoDigits?_lt h
  · exact shortNumber?_lt h
  · exact shortNumber?_lt h
  · cases h

end Grammar

namespace Pin

open Outcome

/-- The pin of a family that a text stands for; the mark of an absent pin counts only where that
is allowed. -/
inductive Spelt (family : Family) (absent : Bool) (raw : String) : Pin → Prop where
  | absent (mark : raw = absentMark) (allowed : absent = true) : Spelt family absent raw .absent
  | expander {p : ExpanderPin} (unmarked : raw ≠ absentMark)
      (meant : Grammar.isExpander raw.toList = true) (form : readExpander raw = .ok p)
      (inBank : p.inBank = true) : Spelt family absent raw (.expander p)
  | mcu {n : Nat} (unmarked : raw ≠ absentMark) (own : Grammar.isExpander raw.toList = false)
      (number : Grammar.number? family raw.toList = some n) : Spelt family absent raw (.mcu raw n)

/-- A pin that can be initialised: it is there, its number can be written, and an expander has
it. -/
def isSound : Pin → Bool
  | .mcu _ number => Digits.isWritable number
  | .expander p => p.inBank
  | .absent => false

variable {family : Family} {absent : Bool} {raw : String} {p : Pin}

theorem lt_ten_of_mapM {cs : List Char} {vs : List Nat}
    (h : cs.mapM Text.digitValue? = some vs) : ∀ v ∈ vs, v < 10 := by
  induction cs generalizing vs with
  | nil =>
    cases h
    exact fun v hv => absurd hv List.not_mem_nil
  | cons c cs ih =>
    simp only [List.mapM_cons, Option.bind_eq_bind, Option.bind_eq_some_iff] at h
    obtain ⟨d, hd, ds, hds, h⟩ := h
    cases h
    exact List.forall_mem_cons.2 ⟨Text.digitValue?_lt hd, ih hds⟩

theorem index_lt_ten {cs : List Char} {parts : Grammar.ExpanderParts}
    (h : Grammar.expander? cs = some parts) : ∀ d ∈ parts.index, d < 10 := by
  unfold Grammar.expander? at h
  split at h
  · simp only [Option.bind_eq_bind, Option.bind_eq_some_iff] at h
    obtain ⟨_, _, _, _, index, hindex, h⟩ := h
    split_ifs at h
    cases h
    exact lt_ten_of_mapM hindex
  · cases h

theorem isWritable_of_readExpander {e : ExpanderPin} (h : readExpander raw = .ok e) :
    (Pin.expander e).isWritable = true := by
  unfold readExpander at h
  split at h
  · cases h
  · rename_i parts hparts
    split_ifs at h with haddress hlong
    · split at h <;> cases h
    · split at h
      · cases h
      · cases h
        exact Digits.isWritable_value (index_lt_ten hparts) (Nat.le_of_not_lt hlong)

theorem readText_eq_ok_iff : readText family absent raw = .ok p ↔ Spelt family absent raw p := by
  constructor
  · intro h
    unfold readText at h
    split_ifs at h with hmark habsent hmeant
    · cases h
      exact .absent hmark habsent
    · obtain ⟨e, he, h⟩ := bind_eq_ok_iff.1 h
      unfold ExpanderPin.number at h
      split_ifs at h with hbank
      cases h
      exact .expander hmark hmeant he hbank
    · split at h
      · rename_i n hn
        cases h
        exact .mcu hmark (by simpa using hmeant) hn
      · cases h
  · rintro (⟨hmark, habsent⟩ | ⟨hmark, hmeant, he, hbank⟩ | ⟨hmark, hown, hn⟩)
    · simp [readText, hmark, habsent]
    · simp [readText, hmark, hmeant, he, ExpanderPin.number, hbank]
    · simp [readText, hmark, hown, hn]

theorem Spelt.isSound (h : Spelt family absent raw p) (hp : p ≠ .absent) : p.isSound = true := by
  cases h with
  | absent => exact absurd rfl hp
  | expander _ _ _ hbank => exact hbank
  | mcu _ _ number =>
    have hlt := Grammar.number?_lt number
    exact Digits.isWritable_of_lt (by omega)

theorem isWritable_of_isSound (h : p.isSound = true) : p.isWritable = true := by
  cases p with
  | mcu => rfl
  | expander => exact ExpanderPin.isWritable_of_inBank h
  | absent => rfl

theorem Spelt.ne_absent (h : Spelt family false raw p) : p ≠ .absent := by
  rintro rfl
  cases h with
  | absent _ allowed => cases allowed

/-! ### Entries -/

theorem read_eq_ok_iff {v : Value} :
    read family absent v = .ok p ↔ ∃ raw, v = .text raw ∧ Spelt family absent raw p := by
  constructor
  · intro h
    cases v with
    | text raw => exact ⟨raw, rfl, readText_eq_ok_iff.1 h⟩
    | torn t =>
      simp only [read] at h
      split_ifs at h
    | _ =>
      -- any other entry is refused, whether it can be written or not
      obtain ⟨_, _, h⟩ := bind_eq_ok_iff.1 h
      cases h
  · rintro ⟨raw, rfl, h⟩
    exact readText_eq_ok_iff.2 h

theorem readOnChip_eq_ok_iff {v : Value} :
    readOnChip family v = .ok p ↔
      ∃ raw n, v = .text raw ∧ p = .mcu raw n ∧ Spelt family false raw (.mcu raw n) := by
  constructor
  · intro h
    obtain ⟨q, hq, h⟩ := bind_eq_ok_iff.1 h
    obtain ⟨raw, rfl, hs⟩ := read_eq_ok_iff.1 hq
    cases hs with
    | absent _ allowed => cases allowed
    | expander => cases h
    | mcu hmark hown hn =>
      cases h
      exact ⟨raw, _, rfl, rfl, .mcu hmark hown hn⟩
  · rintro ⟨raw, n, rfl, rfl, h⟩
    have hread : read family false (.text raw) = .ok (.mcu raw n) :=
      read_eq_ok_iff.2 ⟨raw, rfl, h⟩
    simp [readOnChip, hread]

theorem named_of_readOnChip {v : Value} (h : readOnChip family v = .ok p) :
    ∃ (raw : String) (n : Nat), p = .mcu raw n ∧ Grammar.number? family raw.toList = some n := by
  obtain ⟨raw, i, rfl, rfl, hs⟩ := readOnChip_eq_ok_iff.1 h
  cases hs with
  | mcu _ _ number => exact ⟨raw, _, rfl, number⟩

/-- The address of an expander is one of eight. -/
theorem exists_offset {address : Int} (h : ExpanderPin.isAddress address = true) :
    ∃ k : Fin 8, address = 0x20 + (k : Nat) := by
  obtain ⟨hmin, hmax⟩ := Bool.and_eq_true_iff.1 h
  have hmin' : (0x20 : Int) ≤ address := of_decide_eq_true hmin
  have hmax' : address ≤ 0x27 := of_decide_eq_true hmax
  refine ⟨⟨(address - 0x20).toNat, by omega⟩, ?_⟩
  change address = 0x20 + ((address - 0x20).toNat : Int)
  omega

theorem isAddress_of_readExpander {e : ExpanderPin} (h : readExpander raw = .ok e) :
    ExpanderPin.isAddress e.address = true := by
  unfold readExpander at h
  split at h
  · cases h
  · split_ifs at h with haddress hlong
    · split at h <;> cases h
    · split at h
      · cases h
      · cases h
        exact haddress

/-- A pin of the expander that a text stands for is one of eight in one of two banks, at one of
eight addresses. -/
theorem Spelt.exists_expander {e : ExpanderPin} (h : Spelt family absent raw (.expander e)) :
    ∃ (k i : Fin 8) (bank : Bank), e = ⟨0x20 + (k : Nat), bank, (i : Nat)⟩ := by
  obtain ⟨address, bank, index⟩ := e
  cases h with
  | expander _ _ form inBank =>
    obtain ⟨k, hk⟩ := exists_offset (isAddress_of_readExpander form)
    obtain ⟨hmin, hmax⟩ := Bool.and_eq_true_iff.1 inBank
    have hmin' : 0 ≤ index := of_decide_eq_true hmin
    have hmax' : index < 8 := of_decide_eq_true hmax
    have hindex : index = ((⟨index.toNat, by omega⟩ : Fin 8) : Nat) := by
      change index = (index.toNat : Int)
      omega
    exact ⟨k, _, bank, by rw [← hindex, ← hk]⟩

/-! ### Faults -/

/-- The index of an expander pin is short enough to be read, if the text has one. -/
def IsShort (raw : String) : Prop :=
  ∀ parts, Grammar.expander? raw.toList = some parts → parts.index.length ≤ Digits.limit

theorem length_of_mapM {α β : Type} {f : α → Option β} {xs : List α} {ys : List β}
    (h : xs.mapM f = some ys) : ys.length = xs.length := by
  induction xs generalizing ys with
  | nil =>
    simp only [List.mapM_nil, Option.pure_def, Option.some.injEq] at h
    subst h
    rfl
  | cons x xs ih =>
    simp only [List.mapM_cons, Option.bind_eq_bind, Option.bind_eq_some_iff] at h
    obtain ⟨y, -, zs, hzs, h⟩ := h
    cases h
    simp [ih hzs]

theorem length_index_le {cs : List Char} {parts : Grammar.ExpanderParts}
    (h : Grammar.expander? cs = some parts) : parts.index.length ≤ cs.length := by
  have hbody : (Grammar.body cs).length ≤ cs.length := by
    unfold Grammar.body
    split <;> simp
  unfold Grammar.expander? at h
  split at h
  · rename_i g l letter rest hcs
    simp only [Option.bind_eq_bind, Option.bind_eq_some_iff] at h
    obtain ⟨_, _, _, _, index, hindex, h⟩ := h
    split_ifs at h
    cases h
    have hrest : (Grammar.afterLine rest).length ≤ rest.length := by
      unfold Grammar.afterLine
      split <;> simp
    have hlength := length_of_mapM hindex
    simp only [hcs, List.length_cons] at hbody
    change index.length ≤ cs.length
    omega
  · cases h

/-- A text that is itself short enough cannot have too long an index. -/
theorem isShort_of_length_le (h : raw.length ≤ Digits.limit) : IsShort raw := by
  intro parts hparts
  rw [← String.length_toList] at h
  exact Nat.le_trans (length_index_le hparts) h

theorem readExpander_faults (hs : IsShort raw) {f : Failure} (h : readExpander raw = .error f) :
    ∃ e, f = .config e := by
  unfold readExpander at h
  split at h
  · cases h
    exact ⟨_, rfl⟩
  · rename_i parts hparts
    have hlong : ¬ Digits.limit < parts.index.length := Nat.not_lt.2 (hs parts hparts)
    simp only [hlong, if_false] at h
    split at h
    · split at h
      · cases h
        exact ⟨_, rfl⟩
      · cases h
    · cases h
      exact ⟨_, rfl⟩

/-- A text that is no pin is refused with a configuration error, if its index is not too long. -/
theorem readText_faults (hs : IsShort raw) {f : Failure}
    (h : readText family absent raw = .error f) :
    ∃ e, f = .config e := by
  unfold readText at h
  split_ifs at h
  · cases h
    exact ⟨_, rfl⟩
  · cases hr : readExpander raw with
    | error g =>
      simp only [hr, error_bind, Except.error.injEq] at h
      exact h ▸ readExpander_faults hs hr
    | ok p =>
      simp only [hr, ok_bind, ExpanderPin.number_eq (isWritable_of_readExpander hr)] at h
      split_ifs at h
      cases h
      exact ⟨_, rfl⟩
  · split at h
    · cases h
    · cases h
      exact ⟨_, rfl⟩

/-- The fault for which a text is no pin. -/
def textFault? (family : Family) (absent : Bool) (raw : String) : Option ConfigError :=
  match readText family absent raw with
  | .error (.config e) => some e
  | _ => none

/-- The fault of a text that is no string, and so no pin. -/
def tornFault (family : Family) (t : TornText) : ConfigError :=
  if Grammar.isExpander t.text.head.toList then .expanderForm t.text
  else .unknownPin t.text (some family)

theorem read_torn (t : TornText) :
    read family absent (.torn t) = .error (.config (tornFault family t)) := by
  rw [read, tornFault]
  split_ifs <;> rfl

theorem readText_of_fault {e : ConfigError} (h : textFault? family absent raw = some e) :
    readText family absent raw = .error (.config e) := by
  unfold textFault? at h
  split at h
  · rename_i d hd
    cases h
    exact hd
  · cases h

theorem spelt_of_no_fault (hs : IsShort raw) (h : textFault? family absent raw = none) :
    ∃ p, Spelt family absent raw p := by
  cases hr : readText family absent raw with
  | ok p => exact ⟨p, readText_eq_ok_iff.1 hr⟩
  | error f =>
    obtain ⟨e, rfl⟩ := readText_faults hs hr
    simp [textFault?, hr] at h

end Pin

end BoardWiring
