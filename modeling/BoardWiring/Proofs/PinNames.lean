import BoardWiring.Pin.Grammar
import BoardWiring.Proofs.Numerals

/-!
# The names of a family's own pins

`Grammar.Named` is the grammar of the names as a relation.  A name may end in one line feed, and
the second digit of its number may come from any script, so that a pin has several names; written
with the digits of ASCII and without the line feed they are all the same.

* `Grammar.nameNumber?_eq_some_iff` says that the recogniser accepts exactly the grammar;
* `Grammar.plain` is the plain spelling of a name, `Grammar.spell` the spelling of a port and a
  number, and `Grammar.plain_eq_spell` says that they agree;
* `Grammar.plain_eq_iff` says that two names have one plain spelling if and only if they give the
  same port and the same number.
-/

namespace BoardWiring

namespace Grammar

/-- The names of a family's own pins, with the numbers that they give. -/
inductive Named : Family → List Char → Nat → Prop where
  | stm32 {port : Char} {ds : List Char} {n : Nat} (letter : 'A' ≤ port ∧ port ≤ 'K')
      (digits : shortNumber? ds = some n) : Named .stm32 ('P' :: port :: ds) n
  | nrf52 {port : Char} {ds : List Char} {n : Nat} (bit : port = '0' ∨ port = '1')
      (digits : twoDigits? ds = some n) : Named .nrf52 ('P' :: port :: '_' :: ds) n
  | rp2040 {ds : List Char} {n : Nat} (digits : shortNumber? ds = some n) :
      Named .rp2040 ('P' :: 'I' :: 'N' :: '_' :: ds) n
  | esp32 {ds : List Char} {n : Nat} (digits : shortNumber? ds = some n) :
      Named .esp32 ('g' :: 'p' :: 'i' :: 'o' :: ds) n

variable {family : Family} {cs ds : List Char} {n : Nat}

theorem nameNumber?_eq_some_iff : nameNumber? family cs = some n ↔ Named family cs n := by
  constructor
  · intro h
    unfold nameNumber? at h
    split at h
    · split_ifs at h with hletter
      exact .stm32 hletter h
    · split_ifs at h with hbit
      exact .nrf52 hbit h
    · exact .rp2040 h
    · exact .esp32 h
    · cases h
  · rintro (⟨hletter, h⟩ | ⟨hbit, h⟩ | h | h)
    · simp [nameNumber?, hletter, h]
    · simp [nameNumber?, hbit, h]
    · simpa [nameNumber?] using h
    · simpa [nameNumber?] using h

theorem body_cases (cs : List Char) : cs = body cs ∨ cs = body cs ++ ['\n'] := by
  unfold body
  split_ifs with h
  · obtain ⟨ds, rfl⟩ := List.getLast?_eq_some_iff.1 h
    exact Or.inr (by rw [List.dropLast_concat])
  · exact Or.inl rfl

/-! ### Digits -/

/-- The digit of ASCII for a decimal digit of any script; other characters stay. -/
def asciiDigit (c : Char) : Char :=
  match Text.digitValue? c with
  | some d => Digits.digit d
  | none => c

theorem asciiDigit_of_value {c : Char} {d : Nat} (h : Text.digitValue? c = some d) :
    asciiDigit c = Digits.digit d := by
  simp [asciiDigit, h]

/-- Characters below the digits of the second script stay as they are. -/
theorem asciiDigit_of_lt {c : Char} (h : c.toNat < 0x660) : asciiDigit c = c := by
  by_cases hd : 48 ≤ c.toNat ∧ c.toNat ≤ 57
  · rw [asciiDigit_of_value (Text.digitValue?_of_ascii hd.1 hd.2), Digits.digit,
      if_pos (by omega), Nat.add_sub_cancel' hd.1, Char.ofNat_toNat]
  · simp [asciiDigit, Text.digitValue?_of_lt h hd]

theorem shortNumber?_spec (h : shortNumber? ds = some n) :
    n < 100 ∧ ds.map asciiDigit = Digits.write 10 n := by
  unfold shortNumber? at h
  split at h
  · rename_i c
    split_ifs at h with hc
    cases h
    have hlo : 48 ≤ c.toNat := hc.1
    have hhi : c.toNat ≤ 57 := hc.2
    refine ⟨by omega, ?_⟩
    rw [Digits.write_of_lt (by omega), List.map_singleton,
      asciiDigit_of_value (Text.digitValue?_of_ascii hlo hhi)]
  · rename_i c d
    split_ifs at h with hc
    obtain ⟨v, hv, rfl⟩ := Option.map_eq_some_iff.1 h
    have hlo : 49 ≤ c.toNat := hc.1
    have hhi : c.toNat ≤ 57 := hc.2
    have hv' : v < 10 := Text.digitValue?_lt hv
    have hdiv : (10 * (c.toNat - 48) + v) / 10 = c.toNat - 48 := by omega
    have hmod : (10 * (c.toNat - 48) + v) % 10 = v := by omega
    refine ⟨by omega, ?_⟩
    rw [Digits.write_of_le (by omega) (by omega), hdiv, hmod, Digits.write_of_lt (by omega),
      List.map_cons, List.map_singleton, asciiDigit_of_value hv,
      asciiDigit_of_value (Text.digitValue?_of_ascii (by omega) hhi)]
    rfl
  · cases h

theorem twoDigits?_spec (h : twoDigits? ds = some n) :
    n < 100 ∧ ds.map asciiDigit = [Digits.digit (n / 10), Digits.digit (n % 10)] := by
  unfold twoDigits? at h
  split at h
  · rename_i c d
    simp only [Option.bind_eq_bind, Option.bind_eq_some_iff, Option.some.injEq] at h
    obtain ⟨u, hu, v, hv, rfl⟩ := h
    have hu' : u < 10 := Text.digitValue?_lt hu
    have hv' : v < 10 := Text.digitValue?_lt hv
    have hdiv : (10 * u + v) / 10 = u := by omega
    have hmod : (10 * u + v) % 10 = v := by omega
    refine ⟨by omega, ?_⟩
    rw [hdiv, hmod, List.map_cons, List.map_singleton, asciiDigit_of_value hu,
      asciiDigit_of_value hv]
  · cases h

/-! ### Plain spellings -/

/-- The plain spelling of a name: the digits are those of ASCII, and no line feed ends it. -/
def plain (cs : List Char) : List Char := (body cs).map asciiDigit

/-- The port that a name gives, in the families that have ports. -/
def port? : Family → List Char → Option Char
  | .stm32, cs => cs[1]?
  | .nrf52, cs => cs[1]?
  | .rp2040, _ => none
  | .esp32, _ => none

/-- The spelling of the pin of a port and a number. -/
def spell : Family → Option Char → Nat → List Char
  | .stm32, port, n => 'P' :: port.toList ++ Digits.write 10 n
  | .nrf52, port, n =>
    'P' :: port.toList ++ ['_', Digits.digit (n / 10), Digits.digit (n % 10)]
  | .rp2040, _, n => "PIN_".toList ++ Digits.write 10 n
  | .esp32, _, n => "gpio".toList ++ Digits.write 10 n

theorem forall_mem_shortNumber {P : Char → Prop}
    (hP : ∀ c v, Text.digitValue? c = some v → P c) (h : shortNumber? ds = some n) :
    ∀ c ∈ ds, P c := by
  have hfirst : ∀ c, 48 ≤ c.toNat → c.toNat ≤ 57 → P c := fun c hlo hhi =>
    hP c _ (Text.digitValue?_of_ascii hlo hhi)
  unfold shortNumber? at h
  split at h
  · rename_i c
    split_ifs at h with hc
    exact List.forall_mem_singleton.2 (hfirst c hc.1 hc.2)
  · rename_i c d
    split_ifs at h with hc
    obtain ⟨v, hv, -⟩ := Option.map_eq_some_iff.1 h
    have hlo : 49 ≤ c.toNat := hc.1
    exact List.forall_mem_cons.2 ⟨hfirst c (by omega) hc.2, List.forall_mem_singleton.2 (hP d v hv)⟩
  · cases h

theorem forall_mem_twoDigits {P : Char → Prop}
    (hP : ∀ c v, Text.digitValue? c = some v → P c) (h : twoDigits? ds = some n) :
    ∀ c ∈ ds, P c := by
  unfold twoDigits? at h
  split at h
  · rename_i c d
    simp only [Option.bind_eq_bind, Option.bind_eq_some_iff] at h
    obtain ⟨u, hu, v, hv, -⟩ := h
    exact List.forall_mem_cons.2 ⟨hP c u hu, List.forall_mem_singleton.2 (hP d v hv)⟩
  · cases h

theorem Named.forall_mem {P : Char → Prop} (hletters : ∀ c ∈ "PINgpio_01".toList, P c)
    (hports : ∀ c, 'A' ≤ c ∧ c ≤ 'K' → P c) (hdigits : ∀ c v, Text.digitValue? c = some v → P c)
    (h : Named family cs n) : ∀ c ∈ cs, P c := by
  have hsub : ∀ ds : List Char, ds ⊆ "PINgpio_01".toList → ∀ c ∈ ds, P c :=
    fun ds hds c hc => hletters c (hds hc)
  cases h with
  | stm32 letter digits =>
    have hds := forall_mem_shortNumber hdigits digits
    exact List.forall_mem_cons.2 ⟨hletters 'P' (by decide),
      List.forall_mem_cons.2 ⟨hports _ letter, hds⟩⟩
  | nrf52 bit digits =>
    rename_i port ds
    have hds := forall_mem_twoDigits hdigits digits
    have hport : P port := hletters port (by rcases bit with rfl | rfl <;> decide)
    exact List.forall_mem_cons.2 ⟨hletters 'P' (by decide),
      List.forall_mem_cons.2 ⟨hport, List.forall_mem_cons.2 ⟨hletters '_' (by decide), hds⟩⟩⟩
  | rp2040 digits =>
    have hds := forall_mem_shortNumber hdigits digits
    exact List.forall_mem_append.2 ⟨hsub ['P', 'I', 'N', '_'] (by decide), hds⟩
  | esp32 digits =>
    have hds := forall_mem_shortNumber hdigits digits
    exact List.forall_mem_append.2 ⟨hsub ['g', 'p', 'i', 'o'] (by decide), hds⟩

theorem Named.map_asciiDigit (h : Named family cs n) :
    cs.map asciiDigit = spell family (port? family cs) n := by
  cases h with
  | stm32 letter digits =>
    rename_i port ds
    have hport : port.toNat ≤ 75 := letter.2
    simp [spell, port?, (shortNumber?_spec digits).2, asciiDigit_of_lt (c := port) (by omega),
      asciiDigit_of_lt (c := 'P') (by decide)]
  | nrf52 bit digits =>
    rename_i port ds
    have hport : asciiDigit port = port := by
      rcases bit with rfl | rfl <;> exact asciiDigit_of_lt (by decide)
    simp [spell, port?, (twoDigits?_spec digits).2, hport, asciiDigit_of_lt (c := 'P') (by decide),
      asciiDigit_of_lt (c := '_') (by decide)]
  | rp2040 digits =>
    simp [spell, (shortNumber?_spec digits).2, asciiDigit_of_lt (c := 'P') (by decide),
      asciiDigit_of_lt (c := 'I') (by decide), asciiDigit_of_lt (c := 'N') (by decide),
      asciiDigit_of_lt (c := '_') (by decide)]
  | esp32 digits =>
    simp [spell, (shortNumber?_spec digits).2, asciiDigit_of_lt (c := 'g') (by decide),
      asciiDigit_of_lt (c := 'p') (by decide), asciiDigit_of_lt (c := 'i') (by decide),
      asciiDigit_of_lt (c := 'o') (by decide)]

theorem Named.port?_append (h : Named family ds n) (es : List Char) :
    port? family (ds ++ es) = port? family ds := by
  cases h <;> rfl

/-- The line feed at the end of a name does not count for the port. -/
theorem port?_body (h : Named family (body cs) n) : port? family cs = port? family (body cs) := by
  rcases body_cases cs with hb | hb
  · rw [← hb]
  · conv_lhs => rw [hb]
    exact h.port?_append ['\n']

theorem named_of_number? (h : number? family cs = some n) : Named family (body cs) n :=
  nameNumber?_eq_some_iff.1 h

/-- What holds of the characters of the grammar and of a line feed holds of the characters of every
spelling of a pin. -/
theorem forall_mem_of_number? {P : Char → Prop} (hletters : ∀ c ∈ "PINgpio_01".toList, P c)
    (hports : ∀ c, 'A' ≤ c ∧ c ≤ 'K' → P c) (hdigits : ∀ c v, Text.digitValue? c = some v → P c)
    (hfeed : P '\n') (h : number? family cs = some n) : ∀ c ∈ cs, P c := by
  have hbody := (named_of_number? h).forall_mem hletters hports hdigits
  rcases body_cases cs with hcs | hcs
  · rwa [hcs]
  · rw [hcs]
    exact List.forall_mem_append.2 ⟨hbody, List.forall_mem_singleton.2 hfeed⟩

theorem not_mem_of_number? {c : Char} (hletters : c ∉ "PINgpio_01".toList)
    (hports : ¬('A' ≤ c ∧ c ≤ 'K')) (hdigits : Text.digitValue? c = none) (hfeed : c ≠ '\n')
    (h : number? family cs = some n) : c ∉ cs := by
  intro hc
  refine forall_mem_of_number? (P := (· ≠ c)) ?_ ?_ ?_ hfeed.symm h c hc rfl
  · rintro d hd rfl
    exact hletters hd
  · rintro d hd rfl
    exact hports hd
  · rintro d v hv rfl
    cases hdigits.symm.trans hv

theorem plain_eq_spell (h : number? family cs = some n) :
    plain cs = spell family (port? family cs) n := by
  have hnamed := named_of_number? h
  rw [plain, hnamed.map_asciiDigit, port?_body hnamed]

theorem Named.spell_injective {es : List Char} {m : Nat} (hm : Named family ds m)
    (hn : Named family es n)
    (h : spell family (port? family ds) m = spell family (port? family es) n) :
    port? family ds = port? family es ∧ m = n := by
  have hten : 1 < 10 ∧ 10 ≤ 16 := by omega
  cases hm with
  | stm32 _ digits =>
    cases hn with
    | stm32 _ digits' =>
      simp only [spell, port?, List.getElem?_cons_succ, List.getElem?_cons_zero,
        Option.toList_some, List.cons_append, List.nil_append, List.cons.injEq, true_and] at h
      exact ⟨by simp [port?, h.1], Digits.write_injective hten.1 hten.2 h.2⟩
  | nrf52 _ digits =>
    cases hn with
    | nrf52 _ digits' =>
      have hm' := (twoDigits?_spec digits).1
      have hn' := (twoDigits?_spec digits').1
      simp only [spell, port?, List.getElem?_cons_succ, List.getElem?_cons_zero,
        Option.toList_some, List.cons_append, List.nil_append, List.cons.injEq, true_and,
        and_true] at h
      have hdiv := Digits.digit_injective (by omega) (by omega) h.2.1
      have hmod := Digits.digit_injective (by omega) (by omega) h.2.2
      exact ⟨by simp [port?, h.1], by omega⟩
  | rp2040 digits =>
    cases hn with
    | rp2040 digits' =>
      exact ⟨rfl, Digits.write_injective hten.1 hten.2 (List.append_cancel_left h)⟩
  | esp32 digits =>
    cases hn with
    | esp32 digits' =>
      exact ⟨rfl, Digits.write_injective hten.1 hten.2 (List.append_cancel_left h)⟩

/-- **Two names have one plain spelling if and only if they name one pin.** -/
theorem plain_eq_iff {es : List Char} {m : Nat} (hm : number? family ds = some m)
    (hn : number? family es = some n) :
    plain ds = plain es ↔ port? family ds = port? family es ∧ m = n := by
  rw [plain_eq_spell hm, plain_eq_spell hn]
  constructor
  · intro h
    have hm' := named_of_number? hm
    have hn' := named_of_number? hn
    rw [port?_body hm', port?_body hn'] at h ⊢
    exact hm'.spell_injective hn' h
  · rintro ⟨hport, rfl⟩
    rw [hport]

end Grammar

end BoardWiring
