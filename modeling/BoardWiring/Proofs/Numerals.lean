import BoardWiring.Text.DecimalDigit
import BoardWiring.Text.Digits
import Mathlib.Algebra.Order.Ring.Int
import Mathlib.Data.List.Induction
import Mathlib.Tactic.Common

/-!
# Numerals

The digits that a number is written with stand for that number.

* `Digits.number` is the number that a text of digits stands for, and `Digits.number_write` says
  that it undoes `Digits.write`, so that no two numbers are written alike
  (`Digits.write_injective`);
* `Digits.exists_of_mem_write` says that only digits of the base are written, and
  `Digits.forall_mem_write` what this means for the characters of a number;
* `Digits.signedNumber` reads a number behind its sign, so that no two integers have one text
  (`Digits.signed_injective`, `Digits.hexByte_injective`);
* `Text.digitValue?_lt` and `Text.digitValue?_of_ascii` are the facts about decimal digits of all
  scripts on which the names of pins rest.
-/

namespace BoardWiring

namespace Digits

/-- The number that a text of digits in base `b` stands for; other characters count as zero. -/
def number (b : Nat) (cs : List Char) : Nat := value b (cs.map fun c => (hexValue? c).getD 0)

theorem hexValue?_digit {d : Nat} (h : d < 16) : hexValue? (digit d) = some d := by
  have key : ∀ d < 16, hexValue? (digit d) = some d := by decide
  exact key d h

theorem digit_injective {d e : Nat} (hd : d < 16) (he : e < 16) (h : digit d = digit e) :
    d = e := by
  have hvalue := congrArg hexValue? h
  rwa [hexValue?_digit hd, hexValue?_digit he, Option.some.injEq] at hvalue

theorem write_of_lt {b n : Nat} (h : n < b) : write b n = [digit n] := by
  rw [write]
  have hno : ¬(1 < b ∧ b ≤ n) := by omega
  simp [hno]

theorem write_of_le {b n : Nat} (hb : 1 < b) (h : b ≤ n) :
    write b n = write b (n / b) ++ [digit (n % b)] := by
  rw [write]
  simp [hb, h]

/-- One digit more behind a number other than zero. -/
theorem write_mul_add {b n d : Nat} (hb : 1 < b) (hn : n ≠ 0) (hd : d < b) :
    write b (n * b + d) = write b n ++ [digit d] := by
  have hle : b ≤ n * b + d :=
    Nat.le_add_right_of_le (Nat.le_mul_of_pos_left b (Nat.pos_of_ne_zero hn))
  have hdiv : (n * b + d) / b = n := by
    rw [Nat.mul_comm, Nat.mul_add_div (by omega), Nat.div_eq_of_lt hd, Nat.add_zero]
  have hmod : (n * b + d) % b = d := by
    rw [Nat.mul_comm, Nat.mul_add_mod, Nat.mod_eq_of_lt hd]
  rw [write_of_le hb hle, hdiv, hmod]

/-- A power of the base is written as zeros behind a number other than zero. -/
theorem write_mul_pow {b n : Nat} (hb : 1 < b) (hn : n ≠ 0) (k : Nat) :
    write b (n * Nat.pow b k) = write b n ++ List.replicate k '0' := by
  induction k with
  | zero =>
    change write b (n * 1) = _
    rw [Nat.mul_one, List.replicate_zero, List.append_nil]
  | succ k ih =>
    have hpow : n * Nat.pow b (k + 1) = n * Nat.pow b k * b + 0 := (Nat.mul_assoc n _ b).symm
    have hpos : 0 < Nat.pow b k := Nat.pow_pos (by omega)
    have hne : n * Nat.pow b k ≠ 0 := Nat.mul_ne_zero hn (Nat.ne_of_gt hpos)
    rw [hpow, write_mul_add hb hne (by omega), ih, List.append_assoc, List.replicate_succ']
    rfl

theorem write_ne_nil (b n : Nat) : write b n ≠ [] := by
  rw [write]
  split_ifs
  · exact List.append_ne_nil_of_right_ne_nil _ (List.cons_ne_nil _ _)
  · exact List.cons_ne_nil _ _

theorem exists_write_of_pos {b n : Nat} (hb : 1 < b) (hn : 0 < n) :
    ∃ d ds, write b n = digit d :: ds ∧ 0 < d ∧ d < b := by
  fun_induction write b n with
  | case1 n h ih =>
    obtain ⟨d, ds, hwrite, hd⟩ := ih (Nat.div_pos h.2 (by omega))
    exact ⟨d, ds ++ [digit (n % b)], by rw [hwrite, List.cons_append], hd⟩
  | case2 n h => exact ⟨n, [], rfl, hn, by omega⟩

theorem length_write_le {k n : Nat} (hk : 0 < k) (hn : n < 10 ^ k) :
    (write 10 n).length ≤ k := by
  induction k generalizing n with
  | zero => cases hk
  | succ k ih =>
    by_cases hsmall : n < 10
    · rw [write_of_lt hsmall, List.length_singleton]
      omega
    · have hpos : 0 < k := by
        by_contra hno
        have hzero : k = 0 := by omega
        rw [hzero] at hn
        omega
      have hdiv : n / 10 < 10 ^ k := Nat.div_lt_of_lt_mul (by rwa [Nat.pow_succ'] at hn)
      rw [write_of_le (by decide) (by omega), List.length_append, List.length_singleton]
      exact Nat.succ_le_succ (ih hpos hdiv)

/-- A number has as many digits as the power of ten that it reaches. -/
theorem pow_le_of_lt_length_write {k n : Nat} (hn : 0 < n) (hk : k < (write 10 n).length) :
    10 ^ k ≤ n := by
  by_contra hlt
  rcases Nat.eq_zero_or_pos k with rfl | hpos
  · rw [Nat.pow_zero] at hlt
    omega
  · have hle := length_write_le hpos (Nat.lt_of_not_le hlt)
    omega

theorem lt_pow_length_write (n : Nat) : n < 10 ^ (write 10 n).length := by
  fun_induction write 10 n with
  | case1 n h ih =>
    rw [List.length_append, List.length_singleton, Nat.pow_succ]
    omega
  | case2 n h =>
    rw [List.length_singleton]
    omega

/-! ### Numbers that are short enough -/

theorem isWritable_iff {i : Int} : isWritable i = true ↔ i.natAbs < Nat.pow 10 limit := by
  have hdecide : ∀ k, decide (i.natAbs < Nat.pow 10 k) = true ↔ i.natAbs < Nat.pow 10 k :=
    fun _ => decide_eq_true_iff
  unfold isWritable
  exact hdecide limit

theorem isWritable_of_lt {i : Int} (h : i.natAbs < 10 ^ 9) : isWritable i = true := by
  have hpow : ∀ k, 9 ≤ k → 10 ^ 9 ≤ Nat.pow 10 k := fun k hk =>
    Nat.pow_le_pow_right (by decide) hk
  exact isWritable_iff.2 (Nat.lt_of_lt_of_le h (hpow _ (by decide)))

/-- The least number that is too long to be written. -/
def overlong : Nat := 10 ^ limit

theorem isWritable_overlong : isWritable overlong = false := by
  have hlong : ∀ k, ¬ (((10 ^ k : Nat) : Int).natAbs < Nat.pow 10 k) := fun _ =>
    Nat.lt_irrefl _
  exact Bool.eq_false_iff.2 fun h => hlong limit (isWritable_iff.1 h)

theorem value_append_singleton (b : Nat) (vs : List Nat) (v : Nat) :
    value b (vs ++ [v]) = value b vs * b + v := by
  simp [value]

theorem value_lt {vs : List Nat} (h : ∀ v ∈ vs, v < 10) : value 10 vs < 10 ^ vs.length := by
  induction vs using List.reverseRecOn with
  | nil => decide
  | append_singleton vs v ih =>
    have hv : v < 10 := h v (List.mem_append_right _ List.mem_cons_self)
    have hvs := ih fun v hv => h v (List.mem_append_left _ hv)
    rw [value_append_singleton, List.length_append, List.length_singleton, Nat.pow_succ]
    omega

/-- A number that was read from few enough digits is short enough to be written. -/
theorem isWritable_value {vs : List Nat} (h : ∀ v ∈ vs, v < 10) (hshort : vs.length ≤ limit) :
    isWritable (value 10 vs : Nat) = true := by
  have hpow : ∀ k, vs.length ≤ k → 10 ^ vs.length ≤ Nat.pow 10 k := fun k hk =>
    Nat.pow_le_pow_right (by decide) hk
  exact isWritable_iff.2 (Nat.lt_of_lt_of_le (value_lt h) (hpow limit hshort))

theorem number_append_singleton (b : Nat) (cs : List Char) (c : Char) :
    number b (cs ++ [c]) = number b cs * b + (hexValue? c).getD 0 := by
  simp [number, value]

theorem number_write {b : Nat} (hb : 1 < b) (hb' : b ≤ 16) (n : Nat) :
    number b (write b n) = n := by
  fun_induction write b n with
  | case1 n h ih =>
    have hmod : n % b < b := Nat.mod_lt _ (by omega)
    rw [number_append_singleton, ih, hexValue?_digit (by omega), Option.getD_some, Nat.mul_comm]
    exact Nat.div_add_mod n b
  | case2 n h => simp [number, value, hexValue?_digit (show n < 16 by omega)]

theorem write_injective {b : Nat} (hb : 1 < b) (hb' : b ≤ 16) {m n : Nat}
    (h : write b m = write b n) : m = n := by
  have hnum := congrArg (number b) h
  rwa [number_write hb hb', number_write hb hb'] at hnum

theorem exists_of_mem_write {b : Nat} (hb : 1 < b) {n : Nat} {c : Char} (h : c ∈ write b n) :
    ∃ d < b, c = digit d := by
  fun_induction write b n with
  | case1 n hn ih =>
    rcases List.mem_append.1 h with h | h
    · exact ih h
    · exact ⟨n % b, Nat.mod_lt _ (by omega), List.mem_singleton.1 h⟩
  | case2 n hn => exact ⟨n, by omega, List.mem_singleton.1 h⟩

/-- What holds of the digits of the base holds of the characters of a number. -/
theorem forall_mem_write {P : Char → Prop} {b : Nat} (hb : 1 < b) (h : ∀ d < b, P (digit d))
    (n : Nat) : ∀ c ∈ write b n, P c := by
  intro c hc
  obtain ⟨d, hd, rfl⟩ := exists_of_mem_write hb hc
  exact h d hd

theorem forall_mem_signed {P : Char → Prop} (hminus : P '-') (h : ∀ d < 10, P (digit d))
    (i : Int) : ∀ c ∈ (signed i).toList, P c := by
  have hwrite := forall_mem_write (by decide) h i.natAbs
  intro c hc
  rw [signed, String.toList_ofList, signedIn] at hc
  split_ifs at hc
  · exact (List.mem_cons.1 hc).elim (fun heq => heq ▸ hminus) (hwrite c)
  · exact hwrite c hc

theorem forall_mem_padLeft {P : Char → Prop} {fill : Char} {cs : List Char} (hfill : P fill)
    (h : ∀ c ∈ cs, P c) (width : Nat) : ∀ c ∈ padLeft fill width cs, P c := by
  intro c hc
  rcases List.mem_append.1 hc with hc | hc
  · exact List.eq_of_mem_replicate hc ▸ hfill
  · exact h c hc

theorem forall_mem_hexByte {P : Char → Prop} (hminus : P '-') (h : ∀ d < 16, P (digit d))
    (i : Int) : ∀ c ∈ (hexByte i).toList, P c := by
  have hwrite := forall_mem_write (by decide) h i.natAbs
  have hpad := forall_mem_padLeft (h 0 (by decide)) hwrite
  intro c hc
  rw [hexByte, String.toList_ofList, hexByteChars] at hc
  split_ifs at hc
  · exact (List.mem_cons.1 hc).elim (fun heq => heq ▸ hminus) (hpad 1 c)
  · exact hpad 2 c hc

/-! ### Integers -/

theorem decimal_injective : Function.Injective decimal := by
  intro m n h
  exact write_injective (by decide) (by decide) (String.ofList_injective h)

/-- The integer that a text of digits stands for, behind a minus sign if there is one. -/
def signedNumber (b : Nat) : List Char → Int
  | '-' :: cs => -(number b cs : Int)
  | cs => number b cs

theorem signedNumber_of_not_mem {b : Nat} {cs : List Char} (h : '-' ∉ cs) :
    signedNumber b cs = number b cs := by
  unfold signedNumber
  split
  · exact absurd List.mem_cons_self h
  · rfl

theorem minus_not_mem_write {b : Nat} (hb : 1 < b) (hb' : b ≤ 16) (n : Nat) :
    '-' ∉ write b n := by
  intro h
  obtain ⟨d, hd, hdigit⟩ := exists_of_mem_write hb h
  have hno : ∀ d < 16, '-' ≠ digit d := by decide
  exact hno d (by omega) hdigit

theorem signedNumber_signedIn {b : Nat} (hb : 1 < b) (hb' : b ≤ 16) (i : Int) :
    signedNumber b (signedIn b i) = i := by
  unfold signedIn
  split_ifs with hi
  · rw [signedNumber, number_write hb hb']
    omega
  · rw [signedNumber_of_not_mem (minus_not_mem_write hb hb' _), number_write hb hb']
    omega

theorem signed_injective : Function.Injective signed := by
  intro i j h
  have hchars := congrArg (signedNumber 10) (String.ofList_injective h)
  rwa [signedNumber_signedIn (by decide) (by decide),
    signedNumber_signedIn (by decide) (by decide)] at hchars

/-- Zeros in front of a number do not count. -/
theorem number_zeros (b k : Nat) (cs : List Char) :
    number b (List.replicate k '0' ++ cs) = number b cs := by
  induction k with
  | zero => rfl
  | succ k ih =>
    rw [← ih]
    simp [number, value, List.replicate_succ, hexValue?]

/-- Zeros behind a number are a power of the base. -/
theorem number_append_zeros (b k : Nat) (cs : List Char) :
    number b (cs ++ List.replicate k '0') = number b cs * Nat.pow b k := by
  induction k with
  | zero => simp
  | succ k ih =>
    rw [List.replicate_succ', ← List.append_assoc, number_append_singleton, ih, Nat.mul_assoc]
    rfl

theorem number_padLeft (b width : Nat) (cs : List Char) :
    number b (padLeft '0' width cs) = number b cs :=
  number_zeros b _ cs

theorem minus_not_mem_padLeft {width n : Nat} : '-' ∉ padLeft '0' width (write 16 n) := by
  intro h
  rcases List.mem_append.1 h with h | h
  · exact absurd (List.eq_of_mem_replicate h) (by decide)
  · exact minus_not_mem_write (by decide) (by decide) n h

theorem signedNumber_hexByteChars (i : Int) : signedNumber 16 (hexByteChars i) = i := by
  unfold hexByteChars
  split_ifs with hi
  · rw [signedNumber, number_padLeft, number_write (by decide) (by decide)]
    omega
  · rw [signedNumber_of_not_mem minus_not_mem_padLeft, number_padLeft,
      number_write (by decide) (by decide)]
    omega

theorem hexByte_injective : Function.Injective hexByte := by
  intro i j h
  have hchars := congrArg (signedNumber 16) (String.ofList_injective h)
  rwa [signedNumber_hexByteChars, signedNumber_hexByteChars] at hchars

theorem hexFixed_succ {k : Nat} (hk : 0 < k) (n : Nat) :
    hexFixed (k + 1) n = hexFixed k (n / 16) ++ [digit (n % 16)] := by
  obtain ⟨k, rfl⟩ : ∃ j, k = j + 1 := ⟨k - 1, by omega⟩
  by_cases hsmall : n < 16
  · rw [hexFixed, hexFixed, write_of_lt hsmall, Nat.div_eq_of_lt hsmall, Nat.mod_eq_of_lt hsmall,
      write_of_lt (by decide)]
    simp only [padLeft, List.length_singleton, Nat.add_sub_cancel]
    rw [List.replicate_succ', show digit 0 = '0' from rfl]
  · rw [hexFixed, hexFixed, write_of_le (by decide) (by omega)]
    simp only [padLeft, List.length_append, List.length_singleton, Nat.add_sub_add_right,
      List.append_assoc]

/-- The text of one of the eight addresses from 0x20 on. -/
theorem toList_hexByteUpper (k : Fin 8) :
    (hexByteUpper (0x20 + (k : Nat))).toList = ['2', digit k] := by
  have hnat : ((0x20 : Int) + (k : Nat)).natAbs = 32 + k := by omega
  have hsign : ¬((0x20 : Int) + (k : Nat) < 0) := by omega
  have hdiv : (32 + (k : Nat)) / 16 = 2 := by omega
  have hmod : (32 + (k : Nat)) % 16 = k := by omega
  have hwrite : write 16 (32 + k) = [digit 2, digit k] := by
    rw [write_of_le (by decide) (by omega), hdiv, hmod, write_of_lt (by decide)]
    rfl
  have hupper : ∀ k : Fin 8, [digit 2, digit k].map Char.toUpper = ['2', digit k] := by decide
  rw [hexByteUpper, String.toList_ofList, hexByteChars, if_neg hsign, hnat, hwrite, ← hupper]
  rfl

end Digits

namespace Text

theorem digitValue?_lt {c : Char} {d : Nat} (h : digitValue? c = some d) : d < 10 := by
  obtain ⟨z, hz, rfl⟩ := Option.map_eq_some_iff.1 h
  have hrange := List.find?_some hz
  simp only [Bool.and_eq_true, decide_eq_true_eq] at hrange
  omega

theorem digitValue?_of_ascii {c : Char} (h : 48 ≤ c.toNat) (h' : c.toNat ≤ 57) :
    digitValue? c = some (c.toNat - 48) := by
  have hlt : c.toNat < 48 + 10 := by omega
  simp [digitValue?, zeros, h, hlt]

/-- Below the digits of the second script there are those of ASCII only. -/
theorem digitValue?_of_lt {c : Char} (h : c.toNat < 0x660)
    (hno : ¬(48 ≤ c.toNat ∧ c.toNat ≤ 57)) : digitValue? c = none := by
  have hzeros : ∀ z ∈ zeros, z = 0x30 ∨ 0x660 ≤ z := by decide
  rw [digitValue?, Option.map_eq_none_iff, List.find?_eq_none]
  intro z hz
  rw [Bool.and_eq_true, decide_eq_true_eq, decide_eq_true_eq]
  rcases hzeros z hz with rfl | hz' <;> omega

theorem isDigit_of_digitValue? {c : Char} {v : Nat} (h : digitValue? c = some v)
    (hascii : c.toNat < 128) : c.isDigit = true := by
  have hrange : 48 ≤ c.toNat ∧ c.toNat ≤ 57 := by
    by_contra hno
    cases (digitValue?_of_lt (by omega) hno).symm.trans h
  rw [Char.isDigit, Bool.and_eq_true, decide_eq_true_eq, decide_eq_true_eq]
  exact ⟨hrange.1, hrange.2⟩

end Text

end BoardWiring
