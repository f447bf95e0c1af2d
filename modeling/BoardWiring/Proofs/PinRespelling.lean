import BoardWiring.Proofs.PinGrammar
import Mathlib.Algebra.Order.Ring.Int
import Mathlib.Data.List.Induction

/-!
# The spellings of one expander pin

A pin is written in one way and read in several: the index may stand behind a second low line and
behind zeros, its digits may come from any script, and a line feed may end the text.

* `Text.denotes_iff` says that digits which stand for a number are that number, as it is written,
  behind zeros and in digits of any script;
* `ExpanderPin.Respelling` are the texts that differ from the canonical one in these ways only, and
  `ExpanderPin.spelling_iff_respelling` says that they are the spellings of the pin;
* `Pin.text_round_trip` says that canonical texts are read back, and that two texts are read as one
  pin if and only if the pins they are read as have one canonical text.
-/

namespace BoardWiring

/-! ### Numbers as they are written -/

namespace Digits

theorem map_digit_eq {vs : List Nat} (hne : vs ≠ []) (h : ∀ v ∈ vs, v < 10) :
    ∃ k, vs.map digit = List.replicate k '0' ++ write 10 (value 10 vs) := by
  induction vs using List.reverseRecOn with
  | nil => exact absurd rfl hne
  | append_singleton vs v ih =>
    have hv : v < 10 := h v (List.mem_append_right _ List.mem_cons_self)
    have hvs : ∀ v ∈ vs, v < 10 := fun v hv => h v (List.mem_append_left _ hv)
    rw [List.map_append, List.map_singleton, value_append_singleton]
    by_cases hnil : vs = []
    · subst hnil
      exact ⟨0, by simp [value, write_of_lt hv]⟩
    · obtain ⟨k, hk⟩ := ih hnil hvs
      by_cases hzero : value 10 vs = 0
      · -- All digits so far are zeros, and the one with which zero is written is one more.
        refine ⟨k + 1, ?_⟩
        rw [hk, hzero, Nat.zero_mul, Nat.zero_add, write_of_lt hv, write_of_lt (by decide),
          List.replicate_succ']
        rfl
      · exact ⟨k, by rw [hk, write_mul_add (by decide) hzero hv, List.append_assoc]⟩

theorem length_write_toNat_le {k : Nat} {i : Int} (hk : 0 < k) (hi : i < 10 ^ k) :
    (write 10 i.toNat).length ≤ k := by
  refine length_write_le hk ?_
  have hpos : (0 : Int) < 10 ^ k := Int.pow_pos (by decide)
  have hcast : ((10 ^ k : Nat) : Int) = 10 ^ k := Int.natCast_pow 10 k
  omega

theorem eq_digit_of_hexValue? {c : Char} {d : Nat} (h : hexValue? c = some d) (hd : d < 10) :
    c = digit d := by
  have hrange : 48 ≤ c.toNat ∧ c.toNat ≤ 57 ∧ c.toNat - 48 = d := by
    unfold hexValue? at h
    split_ifs at h with hc hlower hupper
    · exact ⟨hc.1, hc.2, Option.some.inj h⟩
    · have hlo : 97 ≤ c.toNat := hlower.1
      have hvalue := Option.some.inj h
      omega
    · have hlo : 65 ≤ c.toNat := hupper.1
      have hvalue := Option.some.inj h
      omega
  have hcode : 48 + d = c.toNat := by omega
  rw [digit, if_pos hd, hcode, Char.ofNat_toNat]

theorem hexValue?_lt {c : Char} {d : Nat} (h : hexValue? c = some d) : d < 16 := by
  unfold hexValue? at h
  split_ifs at h with hc hlower hupper
  · have hhi : c.toNat ≤ 57 := hc.2
    have hvalue := Option.some.inj h
    omega
  · have hhi : c.toNat ≤ 102 := hlower.2
    have hvalue := Option.some.inj h
    omega
  · have hhi : c.toNat ≤ 70 := hupper.2
    have hvalue := Option.some.inj h
    omega

end Digits

/-! ### Digits of any script -/

namespace Text

open Grammar

theorem digitValue?_digit {d : Nat} (h : d < 10) : digitValue? (Digits.digit d) = some d := by
  have key : ∀ d < 10, digitValue? (Digits.digit d) = some d := by decide
  exact key d h

theorem digitValue?_asciiDigit (c : Char) : digitValue? (asciiDigit c) = digitValue? c := by
  unfold asciiDigit
  split
  · rename_i d hd
    rw [hd, digitValue?_digit (digitValue?_lt hd)]
  · rfl

theorem denotes_map_asciiDigit {ds : List Char} {n : Nat} :
    Denotes (ds.map asciiDigit) n ↔ Denotes ds n := by
  have hmap : (ds.map asciiDigit).map digitValue? = ds.map digitValue? := by
    rw [List.map_map]
    exact List.map_congr_left fun c _ => digitValue?_asciiDigit c
  rw [Denotes, hmap, Denotes]

/-- A written number stands for itself, also behind zeros. -/
theorem denotes_zeros (k n : Nat) : Denotes (List.replicate k '0' ++ Digits.write 10 n) n := by
  have hdigits : ∀ c ∈ List.replicate k '0' ++ Digits.write 10 n,
      digitValue? c = some ((Digits.hexValue? c).getD 0) := by
    intro c hc
    rcases List.mem_append.1 hc with hc | hc
    · rw [List.eq_of_mem_replicate hc]
      decide
    · obtain ⟨d, hd, rfl⟩ := Digits.exists_of_mem_write (by decide) hc
      rw [digitValue?_digit hd, Digits.hexValue?_digit (by omega), Option.getD_some]
  refine ⟨_, ?_, (Digits.number_zeros 10 k _).trans (Digits.number_write (by decide) (by decide) n)⟩
  rw [List.map_map]
  exact List.map_congr_left hdigits

/-- **Digits stand for a number if and only if they are that number as it is written, behind zeros
and in digits of any script.** -/
theorem denotes_iff {ds : List Char} {n : Nat} :
    ds ≠ [] ∧ Denotes ds n ↔
      ∃ k, ds.map asciiDigit = List.replicate k '0' ++ Digits.write 10 n := by
  constructor
  · rintro ⟨hne, vs, hvs, rfl⟩
    have hdigit : ∀ c ∈ ds, some (asciiDigit c) = (digitValue? c).map Digits.digit := by
      intro c hc
      obtain ⟨v, hv⟩ := Option.isSome_iff_exists.1 (digits_of_map_digitValue? hvs c hc)
      rw [asciiDigit_of_value hv, hv, Option.map_some]
    have hascii : ds.map asciiDigit = vs.map Digits.digit := by
      refine (List.map_inj_right fun _ _ => Option.some.inj).1 ?_
      calc (ds.map asciiDigit).map some
          = (ds.map digitValue?).map (Option.map Digits.digit) := by
            rw [List.map_map, List.map_map]
            exact List.map_congr_left hdigit
        _ = (vs.map some).map (Option.map Digits.digit) := by rw [hvs]
        _ = (vs.map Digits.digit).map some := by
            rw [List.map_map, List.map_map]
            rfl
    have hsmall : ∀ v ∈ vs, v < 10 := by
      intro v hv
      have hmem : some v ∈ ds.map digitValue? := hvs ▸ List.mem_map_of_mem hv
      obtain ⟨c, -, hc⟩ := List.mem_map.1 hmem
      exact digitValue?_lt hc
    rw [hascii]
    refine Digits.map_digit_eq ?_ hsmall
    rintro rfl
    exact hne (List.map_eq_nil_iff.1 hvs)
  · rintro ⟨k, hk⟩
    refine ⟨?_, denotes_map_asciiDigit.1 (hk ▸ denotes_zeros k n)⟩
    rintro rfl
    exact Digits.write_ne_nil 10 n (List.append_eq_nil_iff.1 hk.symm).2

end Text

/-! ### Spellings of a pin -/

namespace ExpanderPin

open Grammar

variable {p : ExpanderPin} {cs ds : List Char}

/-- What stands in front of the index in the text of a pin. -/
def stem (p : ExpanderPin) : String :=
  "MI" ++ Digits.hexByteUpper p.address ++ "_" ++ String.singleton p.bank.letter

/-- A text differs from the canonical one of a pin in what does not count: a second low line, zeros
in front of the index, the script of its digits, and a line feed at the end. -/
inductive Respelling (p : ExpanderPin) (ds : List Char) : List Char → Prop where
  | mk {line feed : List Char} {k : Nat} (second : line = [] ∨ line = ['_'])
      (ended : feed = [] ∨ feed = ['\n'])
      (index : ds.map asciiDigit = List.replicate k '0' ++ Digits.write 10 p.index.toNat) :
      Respelling p ds (p.stem.toList ++ line ++ ds ++ feed)

theorem toList_stem (k : Fin 8) (bank : Bank) (index : Int) :
    (stem ⟨0x20 + (k : Nat), bank, index⟩).toList =
      ['M', 'I', '2', Digits.digit k, '_', bank.letter] := by
  simp only [stem, String.toList_append, Digits.toList_hexByteUpper, String.toList_singleton]
  rfl

theorem text_eq_stem (hindex : 0 ≤ p.index) :
    p.text.toList = p.stem.toList ++ Digits.write 10 p.index.toNat := by
  have hsigned : (Digits.signed p.index).toList = Digits.write 10 p.index.toNat := by
    have habs : p.index.natAbs = p.index.toNat := by omega
    rw [Digits.signed, String.toList_ofList, Digits.signedIn, if_neg (by omega), habs]
  rw [← hsigned, ← String.toList_append]
  rfl

theorem isLetter_letter (bank : Bank) : isLetter bank.letter = true := by
  cases bank <;> rfl

theorem digits_of_address {h l : Char} {m n : Nat} (hm : Digits.hexValue? h = some m)
    (hn : Digits.hexValue? l = some n) (k : Fin 8) (hk : 16 * m + n = 0x20 + (k : Nat)) :
    h = '2' ∧ l = Digits.digit k := by
  have hlt := Digits.hexValue?_lt hn
  obtain ⟨rfl, rfl⟩ : m = 2 ∧ n = k := by omega
  exact ⟨Digits.eq_digit_of_hexValue? hm (by decide), Digits.eq_digit_of_hexValue? hn (by omega)⟩

/-- **The spellings of a pin are those texts that differ from its canonical one in what does not
count.** -/
theorem spelling_iff_respelling :
    p.Spelling cs ds ↔
      (0x20 ≤ p.address ∧ p.address ≤ 0x27) ∧ 0 ≤ p.index ∧ p.Respelling ds cs := by
  obtain ⟨address, bank, index⟩ := p
  constructor
  · rintro ⟨⟨_, ⟨name, hcs, @⟨_, _, _, _, _, line, _, high, low, -, second, indexed, -⟩⟩, rfl⟩,
      haddress, n, hn, rfl⟩
    obtain ⟨k, hk⟩ := Pin.exists_offset (isAddress_iff.2 haddress)
    have hcode : _ = 0x20 + (k : Nat) := Int.ofNat_inj.1 hk
    obtain ⟨rfl, rfl⟩ := digits_of_address high low k hcode
    obtain ⟨zeros, hzeros⟩ := Text.denotes_iff.1 ⟨indexed, hn⟩
    have hform : ∀ feed, feed = [] ∨ feed = ['\n'] →
        Respelling ⟨0x20 + (k : Nat), bank, n⟩ ds
          ('M' :: 'I' :: '2' :: Digits.digit k :: '_' :: bank.letter :: (line ++ ds) ++ feed) := by
      intro feed hfeed
      have hmk := @Respelling.mk ⟨0x20 + (k : Nat), bank, n⟩ ds line feed zeros second hfeed hzeros
      rw [toList_stem] at hmk
      simpa using hmk
    refine ⟨haddress, Int.natCast_nonneg n, ?_⟩
    rw [hcode]
    rcases hcs with rfl | rfl
    · simpa using hform [] (Or.inl rfl)
    · exact hform ['\n'] (Or.inr rfl)
  · rintro ⟨haddress, hindex, ⟨second, ended, index⟩⟩
    obtain ⟨k, rfl⟩ := Pin.exists_offset (isAddress_iff.2 haddress)
    obtain ⟨hne, hvalue⟩ := Text.denotes_iff.2 ⟨_, index⟩
    obtain ⟨vs, hvs, -⟩ := id hvalue
    have hname := @ExpanderName.mk '2' _ _ 2 k _ _ (by decide)
      (Digits.hexValue?_digit (by omega)) (isLetter_letter bank) second hne
      (digits_of_map_digitValue? hvs)
    refine ⟨⟨_, ⟨_, ?_, hname⟩, ?_⟩, haddress, _, hvalue, ?_⟩
    · rw [toList_stem]
      rcases ended with rfl | rfl
      · exact Or.inl (by simp)
      · exact Or.inr (by simp)
    · rfl
    · exact (Int.toNat_of_nonneg hindex).symm

theorem Respelling.length_le (h : p.Respelling ds cs) :
    (Digits.write 10 p.index.toNat).length ≤ ds.length := by
  obtain ⟨-, -, index⟩ := h
  have hlength := congrArg List.length index
  rw [List.length_map, List.length_append] at hlength
  omega

theorem respelling_text (hindex : 0 ≤ p.index) :
    p.Respelling (Digits.write 10 p.index.toNat) p.text.toList := by
  have hascii : (Digits.write 10 p.index.toNat).map asciiDigit =
      List.replicate 0 '0' ++ Digits.write 10 p.index.toNat := by
    refine (List.map_congr_left ?_).trans (List.map_id _)
    refine Digits.forall_mem_write (by decide) ?_ _
    decide
  have htext := Respelling.mk (Or.inl rfl) (Or.inl rfl) hascii
  rw [List.append_nil, List.append_nil, ← text_eq_stem hindex] at htext
  exact htext

end ExpanderPin

namespace Pin

variable {p : ExpanderPin} {raw : String}

/-- **A text is read as a pin of an expander if and only if it differs from the text of that pin in
what does not count.** -/
theorem readExpander_eq_ok_iff_respelling :
    readExpander raw = .ok p ↔ (0x20 ≤ p.address ∧ p.address ≤ 0x27) ∧ 0 ≤ p.index ∧
      ∃ ds, p.Respelling ds raw.toList ∧ ds.length ≤ Digits.limit := by
  simp only [readExpander_eq_ok_iff, ExpanderPin.spelling_iff_respelling]
  constructor
  · rintro ⟨ds, ⟨haddress, hindex, hds⟩, hlong⟩
    exact ⟨haddress, hindex, ds, hds, hlong⟩
  · rintro ⟨haddress, hindex, ds, hds, hlong⟩
    exact ⟨ds, ⟨haddress, hindex, hds⟩, hlong⟩

theorem readExpander_text (haddress : 0x20 ≤ p.address ∧ p.address ≤ 0x27) (hindex : 0 ≤ p.index)
    (hlong : (Digits.write 10 p.index.toNat).length ≤ Digits.limit) :
    readExpander p.text = .ok p :=
  readExpander_eq_ok_iff_respelling.2
    ⟨haddress, hindex, _, ExpanderPin.respelling_text hindex, hlong⟩

theorem readExpander_text_of_ok (h : readExpander raw = .ok p) : readExpander p.text = .ok p := by
  obtain ⟨haddress, hindex, ds, hds, hlong⟩ := readExpander_eq_ok_iff_respelling.1 h
  exact readExpander_text haddress hindex (Nat.le_trans hds.length_le hlong)

theorem readText_text {family : Family} {absent : Bool} {t : Pin}
    (h : readText family absent raw = .ok t) : readText family absent t.text = .ok t := by
  cases readText_eq_ok_iff.1 h with
  | absent mark => rwa [mark] at h
  | mcu => exact h
  | expander _ _ form inBank =>
    rename_i p
    have hread := readExpander_text_of_ok form
    obtain ⟨_, hform, -⟩ := readExpander_eq_ok_iff.1 hread
    obtain ⟨_, hform, -⟩ := hform.form
    refine readText_eq_ok_iff.2 (.expander ?_ (isExpander_iff.2 hform.meant) hread inBank)
    intro hmark
    have hmeant := hform.meant
    rw [text_expander] at hmark
    rw [hmark] at hmeant
    exact absurd hmeant (by decide)

theorem text_eq_of_readText {family : Family} {absent : Bool} {t : Pin}
    (h : readText family absent raw = .ok t) (ht : t.isExpander = false) : t.text = raw := by
  cases readText_eq_ok_iff.1 h with
  | absent mark => exact mark.symm
  | mcu => rfl
  | expander => cases ht

/-- **Texts of pins are read back.**  The text of a pin of an expander is read as that pin, if its
index has no more digits than can be read; the text of a pin that has been read is read as that pin
again, and is the one that has been read if the pin is none of an expander.  Two texts are read as
one pin of an expander if and only if the two pins have one text; the texts that are read as a pin
are those that differ from its own in a second low line, in zeros in front of the index, in the
script of its digits, or in a line feed at the end. -/
theorem text_round_trip :
    (∀ p : ExpanderPin, 0x20 ≤ p.address → p.address ≤ 0x27 → 0 ≤ p.index →
      p.index < 10 ^ Digits.limit → readExpander p.text = .ok p) ∧
    (∀ family absent raw t, readText family absent raw = .ok t →
      readText family absent t.text = .ok t ∧ (t.isExpander = false → t.text = raw)) ∧
    (∀ raw raw' p q, readExpander raw = .ok p → readExpander raw' = .ok q →
      (p = q ↔ p.text = q.text)) ∧
    ∀ raw p, readExpander raw = .ok p ↔ (0x20 ≤ p.address ∧ p.address ≤ 0x27) ∧ 0 ≤ p.index ∧
      ∃ ds, p.Respelling ds raw.toList ∧ ds.length ≤ Digits.limit := by
  refine ⟨fun p hmin hmax hindex hlong => ?_, fun family absent raw t h => ?_,
    fun raw raw' p q hp hq => ?_, fun raw p => readExpander_eq_ok_iff_respelling⟩
  · exact readExpander_text ⟨hmin, hmax⟩ hindex (Digits.length_write_toNat_le (by decide) hlong)
  · exact ⟨readText_text h, text_eq_of_readText h⟩
  · constructor
    · rintro rfl
      rfl
    · intro htext
      have hread := (readExpander_text_of_ok hp).symm.trans
        (htext ▸ readExpander_text_of_ok hq)
      exact Except.ok.inj hread

/-- A zero of another script, a second low line and a line feed are lost when a pin is read and
written again. -/
theorem text_round_trip_padded :
    readText .rp2040 true "MI27_B_\u06607\n" = .ok (.expander ⟨0x27, .b, 7⟩) ∧
      readText .rp2040 true (Pin.expander ⟨0x27, .b, 7⟩).text = .ok (.expander ⟨0x27, .b, 7⟩) := by
  have hread : readText .rp2040 true "MI27_B_\u06607\n" = .ok (.expander ⟨0x27, .b, 7⟩) := by
    rfl
  exact ⟨hread, (text_round_trip.2.1 _ _ _ _ hread).1⟩

end Pin

end BoardWiring
