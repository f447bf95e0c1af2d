import BoardWiring.Proofs.CodeReading

/-!
# Pins that are bound under one name

The name for a pin is made of the letters and digits of ASCII in its spelling, so a line feed and
digits of other scripts are lost.  Where there are none, the name is the spelling in lower case, and
no two pins have it.

* `Grammar.IsOdd` are the spellings that have something to lose;
* `Pin.Spelt.clash_of_name_eq` says that two pins have one name only if both are of the chip and one
  of their spellings is odd;
* `Pin.isHead` tells the beginnings of the names of pins from those of the other names.
-/

namespace BoardWiring

/-! ### Words in lower case -/

namespace Name

theorem isWordChar_of_isDigit {c : Char} (h : c.isDigit = true) : isWordChar c = true := by
  simp [isWordChar, isAlphanum_eq, h]

/-- A word is its own name, but for the case of its letters. -/
theorem joined_word {w : List Char} (hne : w ≠ []) (h : ∀ c ∈ w, isWordChar c = true) :
    joined w = w.map Char.toLower := by
  have hpieces : Text.pieces (fun c => !isWordChar c) w = [w] :=
    Code.pieces_eq_singleton fun c hc => by simp [h c hc]
  simp [joined, words, hpieces, hne]

/-- So are two words that are joined already. -/
theorem joined_two_words {v w : List Char} (hv : v ≠ []) (hw : w ≠ [])
    (hvs : ∀ c ∈ v, isWordChar c = true) (hws : ∀ c ∈ w, isWordChar c = true) :
    joined (v ++ '_' :: w) = (v ++ '_' :: w).map Char.toLower := by
  have hpieces : Text.pieces (fun c => !isWordChar c) (v ++ '_' :: w) = [v, w] := by
    rw [Code.pieces_append_cut (by decide),
      Code.pieces_eq_singleton fun c hc => by simp [hvs c hc],
      Code.pieces_eq_singleton fun c hc => by simp [hws c hc]]
    rfl
  have hwords : words (v ++ '_' :: w) = [v, w] := by
    simp [words, hpieces, hv, hw]
  rw [joined, hwords]
  simp

/-- Only the capitals of ASCII are other letters in lower case. -/
theorem toLower_of_not_capital {c : Char} (h : ¬(65 ≤ c.toNat ∧ c.toNat ≤ 90)) : c.toLower = c :=
  dif_neg h

theorem toLower_of_isDigit {c : Char} (h : c.isDigit = true) : c.toLower = c := by
  have hlast : c.toNat ≤ 57 := (isDigit_iff.1 h).2
  exact toLower_of_not_capital (by omega)

theorem map_toLower_digits {ds : List Char} (h : ∀ c ∈ ds, c.isDigit = true) :
    ds.map Char.toLower = ds := by
  have hid : ds.map Char.toLower = ds.map id :=
    List.map_congr_left fun c hc => toLower_of_isDigit (h c hc)
  rw [hid, List.map_id]

end Name

/-! ### Spellings of pins of the chip -/

namespace Grammar

variable {family : Family} {cs ds : List Char} {m n : Nat}

/-- A spelling that is not written with characters of ASCII alone, or ends in a line feed. -/
def IsOdd (cs : List Char) : Prop :=
  cs.getLast? = some '\n' ∨ ∃ c ∈ cs, 128 ≤ c.toNat ∧ Text.isDecimalDigit c = true

/-- A spelling that is not odd is a name written in ASCII. -/
theorem ascii_of_not_isOdd (h : number? family cs = some n) (hodd : ¬IsOdd cs) :
    Named family cs n ∧ ∀ c ∈ cs, c.toNat < 128 := by
  rw [IsOdd, not_or] at hodd
  obtain ⟨hfeed, hdigits⟩ := hodd
  have hbody : body cs = cs := if_neg hfeed
  have hnamed := named_of_number? h
  rw [hbody] at hnamed
  refine ⟨hnamed, fun c hc => ?_⟩
  by_contra hlarge
  have hletters : ∀ c ∈ "PINgpio_01".toList, c.toNat < 128 := by simp
  -- Only digits of other scripts lie beyond ASCII.
  have hdigit : 128 ≤ c.toNat → Text.isDecimalDigit c = true := by
    refine hnamed.forall_mem (P := fun c => 128 ≤ c.toNat → Text.isDecimalDigit c = true)
      (fun d hd hlarge => ?_) (fun d hd hlarge => ?_) (fun d v hv _ => ?_) c hc
    · have hascii := hletters d hd
      omega
    · have hlast : d.toNat ≤ 75 := hd.2
      omega
    · rw [Text.isDecimalDigit, hv]
      rfl
  exact hdigits ⟨c, hc, by omega, hdigit (by omega)⟩

theorem isDigit_of_shortNumber? (h : shortNumber? ds = some n) (hascii : ∀ c ∈ ds, c.toNat < 128) :
    ds ≠ [] ∧ ∀ c ∈ ds, c.isDigit = true := by
  have hdigits := forall_mem_shortNumber (P := fun c => c.toNat < 128 → c.isDigit = true)
    (fun c v hv hlt => Text.isDigit_of_digitValue? hv hlt) h
  refine ⟨?_, fun c hc => hdigits c hc (hascii c hc)⟩
  rintro rfl
  cases h

theorem isDigit_of_twoDigits? (h : twoDigits? ds = some n) (hascii : ∀ c ∈ ds, c.toNat < 128) :
    ds ≠ [] ∧ ∀ c ∈ ds, c.isDigit = true := by
  have hdigits := forall_mem_twoDigits (P := fun c => c.toNat < 128 → c.isDigit = true)
    (fun c v hv hlt => Text.isDigit_of_digitValue? hv hlt) h
  refine ⟨?_, fun c hc => hdigits c hc (hascii c hc)⟩
  rintro rfl
  cases h

theorem Named.joined_eq (h : Named family cs n) (hascii : ∀ c ∈ cs, c.toNat < 128) :
    Name.joined cs = cs.map Char.toLower := by
  have hword : ∀ {ds : List Char}, (∀ c ∈ ds, c.isDigit = true) →
      ∀ c ∈ ds, Name.isWordChar c = true := fun hds c hc => Name.isWordChar_of_isDigit (hds c hc)
  cases h with
  | stm32 letter digits =>
    rename_i port ds
    obtain ⟨-, hds⟩ := isDigit_of_shortNumber? digits fun c hc => hascii c (by simp [hc])
    refine Name.joined_word (by simp) ?_
    exact List.forall_mem_cons.2 ⟨by decide,
      List.forall_mem_cons.2 ⟨Pin.isAlphanum_of_port letter, hword hds⟩⟩
  | nrf52 bit digits =>
    rename_i port ds
    obtain ⟨hne, hds⟩ := isDigit_of_twoDigits? digits fun c hc => hascii c (by simp [hc])
    -- The low line breaks the name in two words, which are joined by a low line again.
    refine Name.joined_two_words (v := ['P', port]) (by simp) hne ?_ (hword hds)
    rcases bit with rfl | rfl <;> exact List.all_eq_true.1 (by decide)
  | rp2040 digits =>
    rename_i ds
    obtain ⟨hne, hds⟩ := isDigit_of_shortNumber? digits fun c hc => hascii c (by simp [hc])
    exact Name.joined_two_words (v := ['P', 'I', 'N']) (by simp) hne
      (List.all_eq_true.1 (by decide)) (hword hds)
  | esp32 digits =>
    rename_i ds
    obtain ⟨-, hds⟩ := isDigit_of_shortNumber? digits fun c hc => hascii c (by simp [hc])
    have hhead : ∀ c ∈ ['g', 'p', 'i', 'o'], Name.isWordChar c = true :=
      List.all_eq_true.1 (by decide)
    exact Name.joined_word (by simp) (List.forall_mem_append.2 ⟨hhead, hword hds⟩)

theorem exists_port {c : Char} (h : 'A' ≤ c ∧ c ≤ 'K') : ∃ k : Fin 11, c = Char.ofNat (65 + k) := by
  have hlo : 65 ≤ c.toNat := h.1
  have hhi : c.toNat ≤ 75 := h.2
  refine ⟨⟨c.toNat - 65, by omega⟩, ?_⟩
  change c = Char.ofNat (65 + (c.toNat - 65))
  rw [Nat.add_sub_cancel' hlo, Char.ofNat_toNat]

theorem port_inj : ∀ k l : Fin 11,
    (Char.ofNat (65 + k)).toLower = (Char.ofNat (65 + l)).toLower → k = l := by
  decide

/-- Names of one family in ASCII that differ, differ in lower case. -/
theorem Named.eq_of_map_toLower (hc : Named family cs m) (hd : Named family ds n)
    (hcs : ∀ c ∈ cs, c.toNat < 128) (hds : ∀ c ∈ ds, c.toNat < 128)
    (h : cs.map Char.toLower = ds.map Char.toLower) : cs = ds := by
  -- Lower case leaves digits as they are, so only ports could be merged by it.
  have hports : ∀ {c d : Char}, 'A' ≤ c ∧ c ≤ 'K' → 'A' ≤ d ∧ d ≤ 'K' →
      c.toLower = d.toLower → c = d := by
    intro c d hc hd heq
    obtain ⟨k, rfl⟩ := exists_port hc
    obtain ⟨l, rfl⟩ := exists_port hd
    rw [port_inj k l heq]
  have hbits : ∀ {c d : Char}, c = '0' ∨ c = '1' → d = '0' ∨ d = '1' →
      c.toLower = d.toLower → c = d := by
    rintro c d (rfl | rfl) (rfl | rfl) <;> decide
  cases hc with
  | stm32 letter digits =>
    rename_i port es
    cases hd with
    | stm32 letter' digits' =>
      rename_i port' es'
      obtain ⟨-, hes⟩ := isDigit_of_shortNumber? digits fun c hc => hcs c (by simp [hc])
      obtain ⟨-, hes'⟩ := isDigit_of_shortNumber? digits' fun c hc => hds c (by simp [hc])
      simp only [List.map_cons, List.cons.injEq, true_and, Name.map_toLower_digits hes,
        Name.map_toLower_digits hes'] at h
      rw [hports letter letter' h.1, h.2]
  | nrf52 bit digits =>
    cases hd with
    | nrf52 bit' digits' =>
      obtain ⟨-, hes⟩ := isDigit_of_twoDigits? digits fun c hc => hcs c (by simp [hc])
      obtain ⟨-, hes'⟩ := isDigit_of_twoDigits? digits' fun c hc => hds c (by simp [hc])
      simp only [List.map_cons, List.cons.injEq, true_and, Name.map_toLower_digits hes,
        Name.map_toLower_digits hes'] at h
      rw [hbits bit bit' h.1, h.2]
  | rp2040 digits =>
    cases hd with
    | rp2040 digits' =>
      obtain ⟨-, hes⟩ := isDigit_of_shortNumber? digits fun c hc => hcs c (by simp [hc])
      obtain ⟨-, hes'⟩ := isDigit_of_shortNumber? digits' fun c hc => hds c (by simp [hc])
      simp only [List.map_cons, List.cons.injEq, true_and, Name.map_toLower_digits hes,
        Name.map_toLower_digits hes'] at h
      rw [h]
  | esp32 digits =>
    cases hd with
    | esp32 digits' =>
      obtain ⟨-, hes⟩ := isDigit_of_shortNumber? digits fun c hc => hcs c (by simp [hc])
      obtain ⟨-, hes'⟩ := isDigit_of_shortNumber? digits' fun c hc => hds c (by simp [hc])
      simp only [List.map_cons, List.cons.injEq, true_and, Name.map_toLower_digits hes,
        Name.map_toLower_digits hes'] at h
      rw [h]

end Grammar

/-! ### Pins -/

namespace Pin

open Name

variable {family : Family} {absent : Bool}

/-- How the names of pins begin. -/
def isHead : List Char → Bool
  | 'p' :: _ => true
  | 'g' :: 'p' :: _ => true
  | 'm' :: 'i' :: _ => true
  | 'n' :: 'o' :: _ => true
  | _ => false

theorem isHead_append {cs : List Char} (h : isHead cs = true) (ds : List Char) :
    isHead (cs ++ ds) = true := by
  unfold isHead at h
  split at h
  · rfl
  · rfl
  · rfl
  · rfl
  · cases h

theorem toList_text (k i : Fin 8) (bank : Bank) :
    (ExpanderPin.text ⟨0x20 + (k : Nat), bank, (i : Nat)⟩).toList =
      ['M', 'I', '2', Digits.digit k, '_', bank.letter, Digits.digit i] := by
  have hindex : (Digits.signed ((i : Nat) : Int)).toList = [Digits.digit i] := by
    have hsign : ¬(((i : Nat) : Int) < 0) := by omega
    rw [Digits.signed, String.toList_ofList, Digits.signedIn, if_neg hsign, Int.natAbs_natCast,
      Digits.write_of_lt (by omega)]
  simp only [ExpanderPin.text, String.toList_append, Digits.toList_hexByteUpper, hindex,
    String.toList_singleton]
  rfl

theorem toList_name_expander (k i : Fin 8) (bank : Bank) :
    (Pin.expander ⟨0x20 + (k : Nat), bank, (i : Nat)⟩).name.toList =
      ['m', 'i', '2', Digits.digit k, '_', bank.letter.toLower, Digits.digit i] := by
  have hjoined : ∀ (k i : Fin 8), joined ['M', 'I', '2', Digits.digit k, '_', bank.letter,
      Digits.digit i] = ['m', 'i', '2', Digits.digit k, '_', bank.letter.toLower,
        Digits.digit i] := by
    cases bank <;> decide
  have htext := toList_text k i bank
  rw [name, text_expander, Name.toList_ofText, htext, hjoined]
  rw [htext, hjoined]
  exact List.cons_ne_nil _ _

theorem name_expander_inj {d e : ExpanderPin} {raw raw' : String} {absent' : Bool}
    (hd : Spelt family absent raw (.expander d)) (he : Spelt family absent' raw' (.expander e))
    (h : (Pin.expander d).name = (Pin.expander e).name) : d = e := by
  obtain ⟨k, i, bank, rfl⟩ := hd.exists_expander
  obtain ⟨k', i', bank', rfl⟩ := he.exists_expander
  have hlist := congrArg String.toList h
  rw [toList_name_expander, toList_name_expander] at hlist
  simp only [List.cons.injEq, true_and, and_true] at hlist
  obtain ⟨hk, hbank, hi⟩ := hlist
  have hbanks : bank = bank' := by
    cases bank <;> cases bank'
    · rfl
    · exact absurd hbank (by decide)
    · exact absurd hbank (by decide)
    · rfl
  rw [Digits.digit_injective (by omega) (by omega) hk, hbanks,
    Digits.digit_injective (by omega) (by omega) hi]

/-- The names of pins begin in their own ways. -/
theorem Spelt.isHead_name {raw : String} {p : Pin} (h : Spelt family absent raw p) :
    isHead p.name.toList = true := by
  cases p with
  | absent => decide
  | expander e =>
    obtain ⟨k, i, bank, rfl⟩ := h.exists_expander
    rw [toList_name_expander]
    rfl
  | mcu raw number =>
    obtain ⟨n, -, hn⟩ := h.number?
    obtain ⟨c, d, rest, hjoined, hhead⟩ := joined_of_named hn
    have hname : (Pin.mcu raw number).name.toList = c :: d :: rest := by
      rw [name, text_mcu, toList_ofText (by simp [hjoined]), hjoined]
    rw [hname]
    rcases hhead with rfl | ⟨rfl, rfl⟩ <;> rfl

/-- Two spellings of pins of the chip give one name, and one of them is odd. -/
structure Clash (m n : String) : Prop where
  apart : m ≠ n
  name_eq : Name.ofText m = Name.ofText n
  odd : Grammar.IsOdd m.toList ∨ Grammar.IsOdd n.toList

theorem clash_of_ofText_eq {raw raw' : String} {m n : Nat}
    (hm : Grammar.number? family raw.toList = some m)
    (hn : Grammar.number? family raw'.toList = some n) (hne : raw ≠ raw')
    (h : Name.ofText raw = Name.ofText raw') : Clash raw raw' := by
  refine ⟨hne, h, ?_⟩
  by_contra hplain
  rw [not_or] at hplain
  obtain ⟨hnamed, hascii⟩ := Grammar.ascii_of_not_isOdd hm hplain.1
  obtain ⟨hnamed', hascii'⟩ := Grammar.ascii_of_not_isOdd hn hplain.2
  -- Both names are the spellings in lower case, which differ.
  have hlower : ∀ {s : String} {k : Nat}, Grammar.number? family s.toList = some k →
      (Name.ofText s).toList = joined s.toList := by
    intro s k hk
    obtain ⟨c, d, rest, hjoined, -⟩ := joined_of_named hk
    exact toList_ofText (by simp [hjoined])
  have hlist := congrArg String.toList h
  rw [hlower hm, hlower hn, hnamed.joined_eq hascii, hnamed'.joined_eq hascii'] at hlist
  exact hne (String.toList_inj.1 (hnamed.eq_of_map_toLower hnamed' hascii hascii' hlist))

/-- **Two pins have one name only if both are of the chip and their spellings clash.** -/
theorem Spelt.clash_of_name_eq {raw raw' : String} {p q : Pin} (hp : Spelt family false raw p)
    (hq : Spelt family false raw' q) (hne : p ≠ q) (h : p.name = q.name) :
    ∃ m i n j, p = .mcu m i ∧ q = .mcu n j ∧ Clash m n := by
  -- Names of the expander begin with an m, which no name of the chip does.
  have hapart : ∀ {e : ExpanderPin} {m : String} {i : Int} {r r' : String},
      Spelt family false r (.expander e) → Spelt family false r' (.mcu m i) →
        (Pin.expander e).name ≠ (Pin.mcu m i).name := by
    intro e m i r r' he hm heq
    obtain ⟨k, l, bank, rfl⟩ := he.exists_expander
    obtain ⟨n, -, hn⟩ := hm.number?
    obtain ⟨c, d, rest, hjoined, hhead⟩ := joined_of_named hn
    have hlist := congrArg String.toList heq
    rw [toList_name_expander, name, text_mcu, toList_ofText (by simp [hjoined]), hjoined] at hlist
    obtain ⟨rfl, -⟩ := List.cons.inj hlist
    rcases hhead with hc | ⟨hc, -⟩
    · exact absurd hc (by decide)
    · exact absurd hc (by decide)
  cases p with
  | absent => exact absurd rfl hp.ne_absent
  | expander d =>
    cases q with
    | absent => exact absurd rfl hq.ne_absent
    | expander e => exact absurd (congrArg Pin.expander (name_expander_inj hp hq h)) hne
    | mcu n j => exact absurd h (hapart hp hq)
  | mcu m i =>
    cases q with
    | absent => exact absurd rfl hq.ne_absent
    | expander e => exact absurd h.symm (hapart hq hp)
    | mcu n j =>
      obtain ⟨k, rfl, hk⟩ := hp.number?
      obtain ⟨l, rfl, hl⟩ := hq.number?
      refine ⟨m, k, n, l, rfl, rfl, clash_of_ofText_eq hk hl ?_ h⟩
      rintro rfl
      obtain rfl : k = l := Option.some.inj (hk.symm.trans hl)
      exact hne rfl

end Pin

end BoardWiring
