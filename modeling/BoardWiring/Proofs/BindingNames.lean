import BoardWiring.Proofs.Generation
import BoardWiring.Proofs.PinNames
import Mathlib.Tactic.Common

/-!
# The names that pins are bound under

The names of the statements for the pins are words of the generated code, and none of them is a
name that the statements for the bus use.

* `Name.IsBinding` says what such a name looks like;
* `Pin.Spelt.isBinding_name` says that the names of pins look like that, and `Emit.isNamed_lines`
  that all names do which the statements for a layout introduce or list.
-/

namespace BoardWiring

namespace Text

theorem mem_pieces {cut : Char → Bool} {cs w : List Char} {c : Char} (hw : w ∈ pieces cut cs)
    (hc : c ∈ w) : c ∈ cs ∧ cut c = false := by
  induction cs generalizing w with
  | nil =>
    rw [pieces, List.mem_singleton] at hw
    subst hw
    cases hc
  | cons d cs ih =>
    rw [pieces] at hw
    split_ifs at hw with hd
    · rcases List.mem_cons.1 hw with rfl | hw
      · cases hc
      · exact ⟨List.mem_cons_of_mem _ (ih hw hc).1, (ih hw hc).2⟩
    · rcases List.mem_cons.1 hw with rfl | hw
      · rcases List.mem_cons.1 hc with rfl | hc
        · exact ⟨List.mem_cons_self, by simpa using hd⟩
        · have hhead : (pieces cut cs).headD [] ∈ pieces cut cs := by
            obtain ⟨v, vs, hv⟩ := List.exists_cons_of_ne_nil (pieces_ne_nil cut cs)
            rw [hv]
            exact List.mem_cons_self
          exact ⟨List.mem_cons_of_mem _ (ih hhead hc).1, (ih hhead hc).2⟩
      · have htail := List.mem_of_mem_tail hw
        exact ⟨List.mem_cons_of_mem _ (ih htail hc).1, (ih htail hc).2⟩

end Text

namespace Name

theorem isUpper_iff {c : Char} : c.isUpper = true ↔ 'A' ≤ c ∧ c ≤ 'Z' := decide_eq_true_iff

theorem isLower_iff {c : Char} : c.isLower = true ↔ 'a' ≤ c ∧ c ≤ 'z' := by
  change (decide ('a' ≤ c) && decide (c ≤ 'z')) = true ↔ _
  rw [Bool.and_eq_true, decide_eq_true_eq, decide_eq_true_eq]

theorem isDigit_iff {c : Char} : c.isDigit = true ↔ '0' ≤ c ∧ c ≤ '9' := by
  change (decide ('0' ≤ c) && decide (c ≤ '9')) = true ↔ _
  rw [Bool.and_eq_true, decide_eq_true_eq, decide_eq_true_eq]

theorem isAlphanum_eq (c : Char) : c.isAlphanum = (c.isUpper || c.isLower || c.isDigit) := rfl

theorem toNat_lt_of_isAlphanum {c : Char} (h : c.isAlphanum = true) : c.toNat < 128 := by
  rw [isAlphanum_eq, Bool.or_eq_true, Bool.or_eq_true, isUpper_iff, isLower_iff, isDigit_iff] at h
  have hle : c ≤ 'z' := by
    rcases h with (h | h) | h
    · exact Char.le_trans h.2 (by decide)
    · exact h.2
    · exact Char.le_trans h.2 (by decide)
  exact Nat.lt_of_le_of_lt (UInt32.le_iff_toNat_le.1 hle) (by decide)

/-- What holds of the first code points holds of the characters of ASCII. -/
theorem of_ascii {P : Char → Prop} (h : ∀ n : Fin 128, P (Char.ofNat n)) {c : Char}
    (hc : c.toNat < 128) : P c := by
  have hcode := h ⟨c.toNat, hc⟩
  rwa [Char.ofNat_toNat] at hcode

/-- The characters of the names of bindings. -/
def isBindingChar (c : Char) : Bool := c.isLower || c.isDigit || c == '_'

/-- How the names that the bus uses begin, and the keyword for variables that change. -/
def reserved : List (List Char) := ["i2".toList, "mc".toList, "mu".toList]

/-- A name of a binding that is none of the bus. -/
structure IsBinding (s : String) : Prop where
  chars : ∀ c ∈ s.toList, isBindingChar c = true
  long : 2 ≤ s.toList.length
  apart : s.toList.take 2 ∉ reserved

theorem IsBinding.of_all {s : String} (chars : s.toList.all isBindingChar = true)
    (long : 2 ≤ s.toList.length) (apart : s.toList.take 2 ∉ reserved) : IsBinding s :=
  ⟨List.all_eq_true.1 chars, long, apart⟩

theorem isBindingChar_toLower {c : Char} (h : c.isAlphanum = true ∨ c = '_') :
    isBindingChar c.toLower = true := by
  rcases h with h | rfl
  · exact of_ascii (P := fun c => c.isAlphanum = true → isBindingChar c.toLower = true)
      (by decide) (toNat_lt_of_isAlphanum h) h
  · decide

theorem mem_intercalate {sep : List Char} {c : Char} {ws : List (List Char)}
    (h : c ∈ sep.intercalate ws) : c ∈ sep ∨ ∃ w ∈ ws, c ∈ w := by
  induction ws with
  | nil => cases h
  | cons w ws ih =>
    cases ws with
    | nil => exact Or.inr ⟨w, List.mem_cons_self, by simpa using h⟩
    | cons v vs =>
      rw [List.intercalate_cons_cons, List.mem_append, List.mem_append] at h
      rcases h with (h | h) | h
      · exact Or.inr ⟨w, List.mem_cons_self, h⟩
      · exact Or.inl h
      · exact (ih h).imp id fun ⟨x, hx, hc⟩ => ⟨x, List.mem_cons_of_mem _ hx, hc⟩

theorem isBindingChar_of_mem_joined {cs : List Char} {c : Char} (h : c ∈ joined cs) :
    isBindingChar c = true := by
  obtain ⟨d, hd, rfl⟩ := List.mem_map.1 h
  refine isBindingChar_toLower ?_
  rcases mem_intercalate hd with hd | ⟨w, hw, hd⟩
  · exact Or.inr (List.mem_singleton.1 hd)
  · have hword := (Text.mem_pieces (List.mem_filter.1 hw).1 hd).2
    exact Or.inl (by simpa [isWordChar] using hword)

theorem joined_cons_cons {c d : Char} (hc : c.isAlphanum = true) (hd : d.isAlphanum = true)
    (cs : List Char) : ∃ rest, joined (c :: d :: cs) = c.toLower :: d.toLower :: rest := by
  have hwords : ∃ w ws, words (c :: d :: cs) = (c :: d :: w) :: ws := by
    simp [words, Text.pieces, isWordChar, hc, hd]
  obtain ⟨w, ws, hw⟩ := hwords
  cases ws with
  | nil => exact ⟨w.map Char.toLower, by simp [joined, hw]⟩
  | cons v vs =>
    rw [joined, hw, List.intercalate_cons_cons]
    exact ⟨_, rfl⟩

theorem toList_ofText {s : String} (h : joined s.toList ≠ []) :
    (ofText s).toList = joined s.toList := by
  have hne : (joined s.toList).isEmpty = false := by simpa using h
  rw [ofText]
  simp [hne]

/-- A text gives the name of a binding, if it is joined to one that does not begin like a reserved
one. -/
theorem isBinding_ofText {s : String} {c d : Char} {rest : List Char}
    (hjoined : joined s.toList = c :: d :: rest) (hapart : [c, d] ∉ reserved) :
    IsBinding (ofText s) := by
  have hname : (ofText s).toList = joined s.toList := toList_ofText (by simp [hjoined])
  refine ⟨fun e he => ?_, ?_, ?_⟩
  · rw [hname] at he
    exact isBindingChar_of_mem_joined he
  · rw [hname, hjoined]
    simp
  · rw [hname, hjoined]
    exact hapart

theorem apart_of_ne {c d : Char} (hi : c ≠ 'i') (hm : c ≠ 'm') : [c, d] ∉ reserved := by
  simp [reserved, hi, hm]

theorem IsBinding.append {s t : String} (hs : IsBinding s)
    (ht : ∀ c ∈ t.toList, isBindingChar c = true) : IsBinding (s ++ t) := by
  have hlong := hs.long
  refine ⟨fun c hc => ?_, ?_, ?_⟩
  · rw [String.toList_append, List.mem_append] at hc
    exact hc.elim (hs.chars c) (ht c)
  · rw [String.toList_append, List.length_append]
    omega
  · rw [String.toList_append, List.take_append_of_le_length hlong]
    exact hs.apart

theorem isBindingChar_decimal {n : Nat} {c : Char} (h : c ∈ (Digits.decimal n).toList) :
    isBindingChar c = true := by
  rw [Digits.decimal, String.toList_ofList] at h
  obtain ⟨d, hd, rfl⟩ := Digits.exists_of_mem_write (by decide) h
  have hall : ∀ d : Fin 10, isBindingChar (Digits.digit d) = true := by decide
  exact hall ⟨d, hd⟩

end Name

namespace Pin

open Name

theorem isBinding_none : IsBinding "none" := .of_all (by decide) (by decide) (by decide)

theorem isAlphanum_of_port {c : Char} (h : 'A' ≤ c ∧ c ≤ 'K') : c.isAlphanum = true := by
  have hupper : c.isUpper = true := isUpper_iff.2 ⟨h.1, Char.le_trans h.2 (by decide)⟩
  simp [isAlphanum_eq, hupper]

/-- The name of a pin of the chip begins with the letters that all such names have. -/
theorem joined_of_named {family : Family} {raw : String} {n : Nat}
    (h : Grammar.number? family raw.toList = some n) :
    ∃ c d rest, joined raw.toList = c :: d :: rest ∧ (c = 'p' ∨ c = 'g' ∧ d = 'p') := by
  have hnamed := Grammar.named_of_number? h
  have htext : raw.toList = Grammar.body raw.toList ∨
      raw.toList = Grammar.body raw.toList ++ ['\n'] := Grammar.body_cases _
  -- A line feed at the end leaves the first two characters as they are.
  have hhead : ∀ c d ds, Grammar.body raw.toList = c :: d :: ds → c.isAlphanum = true →
      d.isAlphanum = true → ∃ rest, joined raw.toList = c.toLower :: d.toLower :: rest := by
    intro c d ds hbody hc hd
    rw [hbody] at htext
    rcases htext with htext | htext
    · rw [htext]
      exact joined_cons_cons hc hd ds
    · rw [htext]
      exact joined_cons_cons hc hd (ds ++ ['\n'])
  generalize Grammar.body raw.toList = cs at hnamed hhead
  cases hnamed with
  | stm32 letter =>
    obtain ⟨rest, hraw⟩ := hhead _ _ _ rfl (by decide) (isAlphanum_of_port letter)
    exact ⟨_, _, rest, hraw, Or.inl rfl⟩
  | nrf52 bit =>
    rename_i port ds _
    have hport : port.isAlphanum = true := by
      rcases bit with rfl | rfl <;> decide
    obtain ⟨rest, hraw⟩ := hhead _ _ _ rfl (by decide) hport
    exact ⟨_, _, rest, hraw, Or.inl rfl⟩
  | rp2040 =>
    obtain ⟨rest, hraw⟩ := hhead _ _ _ rfl (by decide) (by decide)
    exact ⟨_, _, rest, hraw, Or.inl rfl⟩
  | esp32 =>
    obtain ⟨rest, hraw⟩ := hhead _ _ _ rfl (by decide) (by decide)
    exact ⟨_, _, rest, hraw, Or.inr ⟨rfl, rfl⟩⟩

theorem isBinding_of_named {family : Family} {raw : String} {n : Nat}
    (h : Grammar.number? family raw.toList = some n) : IsBinding (Name.ofText raw) := by
  obtain ⟨c, d, rest, hjoined, hhead⟩ := joined_of_named h
  refine isBinding_ofText hjoined ?_
  rcases hhead with rfl | ⟨rfl, rfl⟩
  · exact apart_of_ne (by decide) (by decide)
  · decide

/-- A pin that a text stands for is bound under the name of a binding. -/
theorem Spelt.isBinding_name {family : Family} {absent : Bool} {raw : String} {p : Pin}
    (h : Spelt family absent raw p) : IsBinding p.name := by
  cases h with
  | absent => exact isBinding_none
  | expander =>
    rename_i e _ _ _ _
    have htext : e.text.toList = 'M' :: 'I' :: ((Digits.hexByteUpper e.address ++ "_" ++
        String.singleton e.bank.letter ++ Digits.signed e.index).toList) := by
      simp [ExpanderPin.text, String.append_assoc]
    obtain ⟨rest, hjoined⟩ := joined_cons_cons (c := 'M') (d := 'I') (by decide) (by decide)
      ((Digits.hexByteUpper e.address ++ "_" ++ String.singleton e.bank.letter ++
        Digits.signed e.index).toList)
    rw [← htext] at hjoined
    exact isBinding_ofText hjoined (by decide)
  | mcu _ _ number => exact isBinding_of_named number

end Pin

/-! ### Lines -/

namespace PinLine

/-- The names that a line lists. -/
def items : PinLine → List String
  | .array _ items => items
  | _ => []

/-- The names that a line introduces or lists are names of bindings. -/
def IsNamed (x : PinLine) : Prop := Name.IsBinding x.name ∧ ∀ item ∈ x.items, Name.IsBinding item

end PinLine

namespace Emit

open Name

variable {interrupt : Bool}

theorem isBinding_cellName {p : Pin} (h : IsBinding p.name) (row col : Nat) :
    IsBinding (cellName p row col) := by
  have hline : ∀ c ∈ "_".toList, isBindingChar c = true := List.all_eq_true.1 (by decide)
  have hdecimal : ∀ n, ∀ c ∈ (Digits.decimal n).toList, isBindingChar c = true :=
    fun _ _ hc => isBindingChar_decimal hc
  exact (((h.append hline).append (hdecimal row)).append hline).append (hdecimal col)

theorem isBinding_rowName (row : Nat) : IsBinding (rowName row) :=
  (IsBinding.of_all (by decide) (by decide) (by decide)).append fun _ hc =>
    isBindingChar_decimal hc

theorem isNamed_matrixLines {array : String} {ps : List Pin} {role : Role}
    (harray : IsBinding array) (h : ∀ p ∈ ps, IsBinding p.name) :
    ∀ x ∈ matrixLines array ps role, x.IsNamed := by
  intro x hx
  rcases List.mem_append.1 hx with hx | hx
  · obtain ⟨p, hp, rfl⟩ := List.mem_map.1 hx
    exact ⟨h p hp, fun _ hitem => by cases hitem⟩
  · rw [List.mem_singleton.1 hx]
    refine ⟨harray, fun item hitem => ?_⟩
    obtain ⟨p, hp, rfl⟩ := List.mem_map.1 hitem
    exact h p hp

theorem isNamed_rowLines {ps : List Pin} (h : ∀ p ∈ ps, IsBinding p.name) (row : Nat) :
    ∀ x ∈ rowLines interrupt ps row, x.IsNamed := by
  have hcell : ∀ q ∈ ps.zipIdx, IsBinding (cellName q.1 row q.2) := fun q hq =>
    isBinding_cellName (h q.1 (List.fst_mem_of_mem_zipIdx hq)) row q.2
  intro x hx
  rcases List.mem_append.1 hx with hx | hx
  · obtain ⟨q, hq, rfl⟩ := List.mem_map.1 hx
    unfold cellLine
    split_ifs
    · exact ⟨hcell q hq, fun _ hitem => by cases hitem⟩
    · exact ⟨hcell q hq, fun _ hitem => by cases hitem⟩
  · rw [List.mem_singleton.1 hx]
    refine ⟨isBinding_rowName row, fun item hitem => ?_⟩
    obtain ⟨q, hq, rfl⟩ := List.mem_map.1 hitem
    exact hcell q hq

/-- **All names in the statements for a layout are names of bindings.** -/
theorem isNamed_lines {l : Layout Pin} (h : ∀ p ∈ l.toList, IsBinding p.name) :
    ∀ x ∈ lines interrupt l, x.IsNamed := by
  cases l with
  | matrix rows cols =>
    have hinput : IsBinding "input_pins" :=
      .of_all (by decide) (by decide) (by decide)
    have houtput : IsBinding "output_pins" :=
      .of_all (by decide) (by decide) (by decide)
    intro x hx
    rcases List.mem_append.1 hx with hx | hx
    · exact isNamed_matrixLines hinput (fun p hp => h p (List.mem_append_left _ hp)) x hx
    · exact isNamed_matrixLines houtput (fun p hp => h p (List.mem_append_right _ hp)) x hx
  | grid rows =>
    have harray : IsBinding "direct_pins" :=
      .of_all (by decide) (by decide) (by decide)
    intro x hx
    rcases List.mem_append.1 hx with hx | hx
    · obtain ⟨r, hr, hx⟩ := List.mem_flatMap.1 hx
      exact isNamed_rowLines (fun p hp =>
        h p (List.mem_flatten_of_mem (List.fst_mem_of_mem_zipIdx hr) hp)) r.2 x hx
    · rw [List.mem_singleton.1 hx]
      refine ⟨harray, fun item hitem => ?_⟩
      obtain ⟨r, -, rfl⟩ := List.mem_map.1 hitem
      exact isBinding_rowName r.2

end Emit

theorem Board.Compiled.isNamed_lines {b : Board} {source : String} {u : GeneratedUnit}
    (h : Compiled b source u) : ∀ x ∈ Emit.lines b.keys.interrupt b.pins, x.IsNamed := by
  refine Emit.isNamed_lines fun p hp => ?_
  rw [pins, Layout.toList_map] at hp
  obtain ⟨v, hv, rfl⟩ := List.mem_map.1 hp
  obtain ⟨raw, rfl, hs⟩ := Pin.read_eq_ok_iff.1 (read_ofEntry (h.read v hv))
  exact hs.isBinding_name

end BoardWiring
