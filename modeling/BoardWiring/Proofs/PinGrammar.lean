import BoardWiring.Proofs.PinNames
import BoardWiring.Proofs.PinReading

/-!
# The grammar of pins

Which texts are pins, and which pins they are, is said by relations that do not mention the
readers: what digits denote, what a name of a family looks like, and what the spelling of an
expander pin is made of.

* `Text.Denotes` is the number that decimal digits of any script stand for;
* `Grammar.ChipText` are the spellings of a family's own pins, and `Grammar.number?_iff_chipText`
  says that these are recognised;
* `Grammar.ExpanderText` is the form of expander pins, `ExpanderPin.Spelling` adds an address, a
  bank and an index, and `Pin.readExpander_eq_ok_iff` says that these are read;
* `Pin.readText_follows_grammar` says which texts are read as which pins, and as what kind of
  error every other text is refused.
-/

namespace BoardWiring

/-! ### Digits -/

namespace Text

/-- Decimal digits of any script, the most significant first, stand for a number. -/
def Denotes (ds : List Char) (n : Nat) : Prop :=
  ∃ vs, ds.map digitValue? = vs.map some ∧ Digits.value 10 vs = n

variable {c d : Char} {ds : List Char} {n : Nat}

theorem denotes_singleton : Denotes [c] n ↔ digitValue? c = some n := by
  constructor
  · rintro ⟨vs, hvs, rfl⟩
    obtain ⟨v, rfl, hv⟩ := List.map_eq_singleton_iff.1 hvs.symm
    simpa [Digits.value] using hv.symm
  · intro hc
    exact ⟨[n], by simp [hc], by simp [Digits.value]⟩

theorem denotes_pair :
    Denotes [c, d] n ↔
      ∃ u v, digitValue? c = some u ∧ digitValue? d = some v ∧ 10 * u + v = n := by
  constructor
  · rintro ⟨vs, hvs, rfl⟩
    cases vs with
    | nil => cases hvs
    | cons u vs =>
      simp only [List.map_cons, List.map_nil, List.cons.injEq] at hvs
      obtain ⟨v, rfl, hv⟩ := List.map_eq_singleton_iff.1 hvs.2.symm
      exact ⟨u, v, hvs.1, hv.symm, by simp [Digits.value, Nat.mul_comm]⟩
  · rintro ⟨u, v, hu, hv, rfl⟩
    exact ⟨[u, v], by simp [hu, hv], by simp [Digits.value, Nat.mul_comm]⟩

end Text

namespace Grammar

open Text

variable {family : Family} {cs ds name : List Char} {n : Nat}

theorem mapM_eq_some_iff {α β : Type} {f : α → Option β} {xs : List α} {ys : List β} :
    xs.mapM f = some ys ↔ xs.map f = ys.map some := by
  induction xs generalizing ys with
  | nil => cases ys <;> simp
  | cons x xs ih =>
    simp only [List.mapM_cons, Option.bind_eq_bind, Option.bind_eq_some_iff, Option.pure_def,
      Option.some.injEq, ih, List.map_cons]
    constructor
    · rintro ⟨y, hy, ys, hys, rfl⟩
      rw [hy, hys, List.map_cons]
    · intro h
      cases ys with
      | nil => cases h
      | cons y ys =>
        rw [List.map_cons, List.cons.injEq] at h
        exact ⟨y, h.1, ys, h.2, rfl⟩

/-! ### The line feed at the end -/

/-- A text without line feeds is what is left of itself, and of itself with a line feed at its end.
-/
theorem body_eq_iff (h : '\n' ∉ name) : body cs = name ↔ cs = name ∨ cs = name ++ ['\n'] := by
  constructor
  · rintro rfl
    exact body_cases cs
  · rintro (rfl | rfl)
    · refine if_neg fun hlast => h ?_
      exact List.mem_of_getLast? hlast
    · rw [body, List.getLast?_concat, if_pos rfl, List.dropLast_concat]

theorem feed_not_mem_digits (h : ∀ c ∈ ds, isDecimalDigit c = true) : '\n' ∉ ds := by
  intro hmem
  have hfeed : isDecimalDigit '\n' = false := by decide
  rw [h _ hmem] at hfeed
  cases hfeed

/-! ### Pins of the chip -/

/-- A number without leading zeros: zero, or a digit of ASCII from one to nine, and at most one
character more. -/
inductive ShortNumeral : List Char → Prop where
  | zero : ShortNumeral ['0']
  | more {c : Char} {rest : List Char} (lead : '1' ≤ c ∧ c ≤ '9') (few : rest.length ≤ 1) :
      ShortNumeral (c :: rest)

/-- The names of the pins of a family, with the numbers that they give. -/
inductive ChipName : Family → List Char → Nat → Prop where
  | stm32 {port : Char} {ds : List Char} {n : Nat} (letter : 'A' ≤ port ∧ port ≤ 'K')
      (short : ShortNumeral ds) (value : Denotes ds n) : ChipName .stm32 ('P' :: port :: ds) n
  | nrf52 {port : Char} {ds : List Char} {n : Nat} (bit : port = '0' ∨ port = '1')
      (two : ds.length = 2) (value : Denotes ds n) : ChipName .nrf52 ('P' :: port :: '_' :: ds) n
  | rp2040 {ds : List Char} {n : Nat} (short : ShortNumeral ds) (value : Denotes ds n) :
      ChipName .rp2040 ("PIN_".toList ++ ds) n
  | esp32 {ds : List Char} {n : Nat} (short : ShortNumeral ds) (value : Denotes ds n) :
      ChipName .esp32 ("gpio".toList ++ ds) n

/-- A text is the name of a pin of a family, but for a line feed at its end. -/
def ChipText (family : Family) (cs : List Char) (n : Nat) : Prop :=
  ∃ name, (cs = name ∨ cs = name ++ ['\n']) ∧ ChipName family name n

theorem shortNumber?_eq_some_iff : shortNumber? ds = some n ↔ ShortNumeral ds ∧ Denotes ds n := by
  constructor
  · intro h
    unfold shortNumber? at h
    split at h
    · rename_i c
      split_ifs at h with hc
      have hvalue := digitValue?_of_ascii hc.1 hc.2
      refine ⟨?_, denotes_singleton.2 (hvalue.trans h)⟩
      rcases Nat.eq_or_lt_of_le (show 48 ≤ c.toNat from hc.1) with hzero | hmore
      · have hc0 : c = '0' := Char.ext (UInt32.toNat_inj.1 hzero.symm)
        exact hc0 ▸ .zero
      · exact .more ⟨hmore, hc.2⟩ (Nat.zero_le 1)
    · rename_i c d
      split_ifs at h with hc
      obtain ⟨v, hv, rfl⟩ := Option.map_eq_some_iff.1 h
      have hlo : 49 ≤ c.toNat := hc.1
      have hvalue := digitValue?_of_ascii (by omega) hc.2
      exact ⟨.more hc (Nat.le_refl 1), denotes_pair.2 ⟨_, v, hvalue, hv, rfl⟩⟩
    · cases h
  · rintro ⟨hform, hvalue⟩
    cases hform with
    | zero =>
      cases (denotes_singleton.1 hvalue).symm.trans digitValue?_zero
      rfl
    | @more c rest hlead hfew =>
      have hlo : 49 ≤ c.toNat := hlead.1
      have hdigit := digitValue?_of_ascii (by omega) hlead.2
      match rest, hfew with
      | [], _ =>
        have hascii : '0' ≤ c ∧ c ≤ '9' := ⟨Nat.le_of_succ_le hlo, hlead.2⟩
        rw [shortNumber?, if_pos hascii]
        exact hdigit.symm.trans (denotes_singleton.1 hvalue)
      | [d], _ =>
        obtain ⟨u, v, hu, hv, rfl⟩ := denotes_pair.1 hvalue
        cases hdigit.symm.trans hu
        rw [shortNumber?, if_pos hlead, hv]
        rfl

theorem twoDigits?_eq_some_iff : twoDigits? ds = some n ↔ ds.length = 2 ∧ Denotes ds n := by
  constructor
  · intro h
    unfold twoDigits? at h
    split at h
    · rename_i c d
      simp only [Option.bind_eq_bind, Option.bind_eq_some_iff, Option.some.injEq] at h
      obtain ⟨u, hu, v, hv, hn⟩ := h
      exact ⟨rfl, denotes_pair.2 ⟨u, v, hu, hv, hn⟩⟩
    · cases h
  · rintro ⟨htwo, hvalue⟩
    match ds, htwo with
    | [c, d], _ =>
      obtain ⟨u, v, hu, hv, rfl⟩ := denotes_pair.1 hvalue
      simp [twoDigits?, hu, hv]

theorem named_iff_chipName : Named family cs n ↔ ChipName family cs n := by
  constructor
  · rintro (⟨hletter, h⟩ | ⟨hbit, h⟩ | h | h)
    · obtain ⟨hshort, hvalue⟩ := shortNumber?_eq_some_iff.1 h
      exact .stm32 hletter hshort hvalue
    · obtain ⟨htwo, hvalue⟩ := twoDigits?_eq_some_iff.1 h
      exact .nrf52 hbit htwo hvalue
    · obtain ⟨hshort, hvalue⟩ := shortNumber?_eq_some_iff.1 h
      exact .rp2040 hshort hvalue
    · obtain ⟨hshort, hvalue⟩ := shortNumber?_eq_some_iff.1 h
      exact .esp32 hshort hvalue
  · rintro (⟨hletter, hshort, hvalue⟩ | ⟨hbit, htwo, hvalue⟩ | ⟨hshort, hvalue⟩ | ⟨hshort, hvalue⟩)
    · exact .stm32 hletter (shortNumber?_eq_some_iff.2 ⟨hshort, hvalue⟩)
    · exact .nrf52 hbit (twoDigits?_eq_some_iff.2 ⟨htwo, hvalue⟩)
    · exact .rp2040 (shortNumber?_eq_some_iff.2 ⟨hshort, hvalue⟩)
    · exact .esp32 (shortNumber?_eq_some_iff.2 ⟨hshort, hvalue⟩)

theorem Named.feed_not_mem (h : Named family name n) : '\n' ∉ name := by
  intro hmem
  refine h.forall_mem (P := (· ≠ '\n')) ?_ ?_ ?_ _ hmem rfl
  · rintro _ hletter rfl
    exact absurd hletter (by decide)
  · rintro _ hport rfl
    exact absurd hport.1 (by decide)
  · rintro _ v hv rfl
    have hfeed : digitValue? '\n' = none := by decide
    cases hfeed.symm.trans hv

/-- **The spellings of a family's own pins are recognised, and nothing else.** -/
theorem number?_iff_chipText : number? family cs = some n ↔ ChipText family cs n := by
  rw [number?, nameNumber?_eq_some_iff]
  constructor
  · intro h
    exact ⟨body cs, body_cases cs, named_iff_chipName.1 h⟩
  · rintro ⟨name, hcs, hname⟩
    have hnamed := named_iff_chipName.2 hname
    rwa [(body_eq_iff hnamed.feed_not_mem).2 hcs]

theorem ChipText.le (h : ChipText family cs n) : n ≤ 99 :=
  Nat.le_of_lt_succ (number?_lt (number?_iff_chipText.2 h))

/-- The first two characters of a name, by which it is told from an expander pin. -/
theorem ChipText.not_expander (h : ChipText family cs n) : ¬"MI".toList <+: cs := by
  obtain ⟨name, hcs, hname⟩ := h
  have hhead : name.head? = some 'P' ∨ name.head? = some 'g' := by
    cases hname with
    | stm32 | nrf52 | rp2040 => exact Or.inl rfl
    | esp32 => exact Or.inr rfl
  rintro ⟨rest, hrest⟩
  have hfirst : cs.head? = some 'M' := hrest ▸ rfl
  have hsame : cs.head? = name.head? := by
    rcases hcs with rfl | rfl
    · rfl
    · rw [List.head?_append]
      rcases hhead with hname | hname <;> rw [hname] <;> rfl
  rw [hsame] at hfirst
  rcases hhead with hname | hname <;> cases hname.symm.trans hfirst

theorem ChipText.ne_mark (h : ChipText family cs n) : cs ≠ ['_'] := by
  rintro rfl
  have hnone : ∀ family, number? family ['_'] = none := by
    intro family
    cases family <;> rfl
  cases (hnone family).symm.trans (number?_iff_chipText.2 h)

/-! ### Expander pins -/

/-- The form of an expander pin: two hexadecimal digits of an address, a letter for a bank, perhaps
a second low line, and the decimal digits of an index. -/
inductive ExpanderName : List Char → Nat → Char → List Char → Prop where
  | mk {h l letter : Char} {m n : Nat} {line ds : List Char}
      (high : Digits.hexValue? h = some m) (low : Digits.hexValue? l = some n)
      (bank : isLetter letter = true) (second : line = [] ∨ line = ['_'])
      (indexed : ds ≠ []) (decimal : ∀ c ∈ ds, isDecimalDigit c = true) :
      ExpanderName ('M' :: 'I' :: h :: l :: '_' :: letter :: (line ++ ds)) (16 * m + n) letter ds

/-- A text has the form of an expander pin, but for a line feed at its end. -/
def ExpanderText (cs : List Char) (address : Nat) (letter : Char) (ds : List Char) : Prop :=
  ∃ name, (cs = name ∨ cs = name ++ ['\n']) ∧ ExpanderName name address letter ds

theorem digits_of_map_digitValue? {vs : List Nat} (h : ds.map digitValue? = vs.map some) :
    ∀ c ∈ ds, isDecimalDigit c = true := by
  intro c hc
  have hmem : digitValue? c ∈ vs.map some := h ▸ List.mem_map_of_mem hc
  obtain ⟨v, -, hv⟩ := List.mem_map.1 hmem
  rw [isDecimalDigit, ← hv]
  rfl

/-- Digits begin with no low line, so that one in front of them is dropped. -/
theorem afterLine_append {line : List Char} (hline : line = [] ∨ line = ['_'])
    (hdigits : ∀ c ∈ ds, isDecimalDigit c = true) : afterLine (line ++ ds) = ds := by
  rcases hline with rfl | rfl
  · unfold afterLine
    split
    · rename_i rest hrest
      have hmark := hdigits '_' (by rw [← List.nil_append ds, hrest]; exact List.mem_cons_self)
      cases (show isDecimalDigit '_' = false by decide).symm.trans hmark
    · rfl
  · rfl

theorem afterLine_cases (cs : List Char) :
    ∃ line, (line = [] ∨ line = ['_']) ∧ cs = line ++ afterLine cs := by
  unfold afterLine
  split
  · exact ⟨['_'], Or.inr rfl, rfl⟩
  · exact ⟨[], Or.inl rfl, rfl⟩

theorem ExpanderName.feed_not_mem {address : Nat} {letter : Char}
    (h : ExpanderName name address letter ds) : '\n' ∉ name := by
  obtain ⟨hhigh, hlow, hletter, hline, -, hdigits⟩ := h
  have hhex : ∀ {c : Char} {v : Nat}, Digits.hexValue? c = some v → c ≠ '\n' := by
    rintro c v hv rfl
    have hnone : Digits.hexValue? '\n' = none := by decide
    cases hnone.symm.trans hv
  have hnotLetter : ∀ {c : Char}, isLetter c = true → c ≠ '\n' := by
    rintro c hc rfl
    cases hc
  simp only [List.mem_cons, List.mem_append, not_or]
  refine ⟨by decide, by decide, (hhex hhigh).symm, (hhex hlow).symm, by decide,
    (hnotLetter hletter).symm, ?_, feed_not_mem_digits hdigits⟩
  rcases hline with rfl | rfl <;> decide

/-- **The texts of the form of expander pins are recognised, and nothing else.** -/
theorem expander?_eq_some_iff {parts : ExpanderParts} :
    expander? cs = some parts ↔ ∃ ds, ExpanderText cs parts.address parts.letter ds ∧
      ds.map digitValue? = parts.index.map some := by
  constructor
  · intro h
    unfold expander? at h
    split at h
    · rename_i hi lo letter rest hbody
      simp only [Option.bind_eq_bind, Option.bind_eq_some_iff] at h
      obtain ⟨high, hhigh, low, hlow, index, hindex, h⟩ := h
      split_ifs at h with hparts
      cases h
      obtain ⟨hletter, hne⟩ := Bool.and_eq_true_iff.1 hparts
      rw [mapM_eq_some_iff] at hindex
      obtain ⟨line, hline, hrest⟩ := afterLine_cases rest
      refine ⟨afterLine rest, ⟨body cs, body_cases cs, ?_⟩, hindex⟩
      have hds : afterLine rest ≠ [] := by
        intro hnil
        rw [hnil] at hindex
        simp [List.map_eq_nil_iff.1 hindex.symm] at hne
      have hname := ExpanderName.mk hhigh hlow hletter hline hds (digits_of_map_digitValue? hindex)
      rwa [← hrest, ← hbody] at hname
    · cases h
  · rintro ⟨ds, ⟨name, hcs, hname⟩, hindex⟩
    have hbody := (body_eq_iff hname.feed_not_mem).2 hcs
    obtain ⟨address, letter, index⟩ := parts
    cases hname with
    | mk hhigh hlow hletter hline hne hdigits =>
      have hvalues := mapM_eq_some_iff.2 hindex
      have hindexed : index ≠ [] := by
        rintro rfl
        exact hne (List.map_eq_nil_iff.1 hindex)
      simp [expander?, hbody, hhigh, hlow, afterLine_append hline hdigits, hvalues, hletter,
        hindexed]

theorem ExpanderText.length_le {address : Nat} {letter : Char}
    (h : ExpanderText cs address letter ds) : ds.length ≤ cs.length := by
  obtain ⟨name, hcs, ⟨-⟩⟩ := h
  rcases hcs with rfl | rfl
  · simp only [List.length_cons, List.length_append]
    omega
  · simp only [List.cons_append, List.length_cons, List.length_append]
    omega

theorem ExpanderText.meant {address : Nat} {letter : Char}
    (h : ExpanderText cs address letter ds) : "MI".toList <+: cs := by
  obtain ⟨name, hcs, ⟨-⟩⟩ := h
  rcases hcs with rfl | rfl <;> exact ⟨_, rfl⟩

end Grammar

/-- A text spells a pin of an expander, with an index of some digits: it has the form of one, and
address, bank and index are those of the pin. -/
structure ExpanderPin.Spelling (p : ExpanderPin) (cs ds : List Char) : Prop where
  form : ∃ address : Nat, Grammar.ExpanderText cs address p.bank.letter ds ∧ p.address = address
  address : 0x20 ≤ p.address ∧ p.address ≤ 0x27
  index : ∃ n : Nat, Text.Denotes ds n ∧ p.index = n

theorem ExpanderPin.Spelling.length_le {p : ExpanderPin} {cs ds : List Char}
    (h : p.Spelling cs ds) : ds.length ≤ cs.length := by
  obtain ⟨_, hform, -⟩ := h.form
  exact hform.length_le

namespace Pin

open Grammar Text

variable {family : Family} {absent : Bool} {raw : String} {p : ExpanderPin}

theorem ofLetter?_eq_some_iff {c : Char} {bank : Bank} :
    Bank.ofLetter? c = some bank ↔ c = bank.letter := by
  constructor
  · intro h
    unfold Bank.ofLetter? at h
    split_ifs at h with ha hb
    · cases h
      exact ha
    · cases h
      exact hb
  · rintro rfl
    exact Bank.ofLetter?_letter bank

/-- **The spellings of an expander pin are read as that pin, if its index is not too long.** -/
theorem readExpander_eq_ok_iff :
    readExpander raw = .ok p ↔ ∃ ds, p.Spelling raw.toList ds ∧ ds.length ≤ Digits.limit := by
  constructor
  · intro h
    unfold readExpander at h
    split at h
    · cases h
    · rename_i parts hparts
      obtain ⟨ds, hform, hindex⟩ := expander?_eq_some_iff.1 hparts
      split_ifs at h with haddress hlong
      · split at h <;> cases h
      · split at h
        · cases h
        · rename_i bank hbank
          cases h
          rw [ofLetter?_eq_some_iff] at hbank
          have hlength : ds.length = parts.index.length := by
            simpa using congrArg List.length hindex
          refine ⟨ds, ⟨⟨parts.address, hbank ▸ hform, rfl⟩,
            ExpanderPin.isAddress_iff.1 haddress, ?_⟩, ?_⟩
          · exact ⟨_, ⟨parts.index, hindex, rfl⟩, rfl⟩
          · omega
  · rintro ⟨ds, ⟨⟨address, hform, haddress_eq⟩, haddress, n, ⟨vs, hvs, rfl⟩, hindex⟩, hlong⟩
    have hlength : ds.length = vs.length := by simpa using congrArg List.length hvs
    have hparts := (@expander?_eq_some_iff _ ⟨address, p.bank.letter, vs⟩).2 ⟨ds, hform, hvs⟩
    have hshort : ¬Digits.limit < vs.length := by omega
    obtain ⟨paddress, bank, pindex⟩ := p
    subst haddress_eq hindex
    simp [readExpander, hparts, ExpanderPin.isAddress_iff.2 haddress, hshort]

/-- A text that is meant as an expander pin is refused as such, unless its index is too long. -/
theorem kind_of_readExpander (hshort : ∀ p ds, ExpanderPin.Spelling p raw.toList ds →
    ds.length ≤ Digits.limit) {f : Failure} (h : readExpander raw = .error f) :
    ∃ e, f = .config e ∧ e.kind = "InvalidExpanderPin" := by
  unfold readExpander at h
  split at h
  · cases h
    exact ⟨_, rfl, rfl⟩
  · rename_i parts hparts
    split_ifs at h with haddress hlong
    · split at h
      · cases h
        exact ⟨_, rfl, rfl⟩
      · -- All but the index is right, so that the text spells a pin and its index is short.
        rename_i bank hbank
        rw [ofLetter?_eq_some_iff] at hbank
        obtain ⟨ds, hform, hindex⟩ := expander?_eq_some_iff.1 hparts
        have hlength : ds.length = parts.index.length := by
          simpa using congrArg List.length hindex
        have hspelling : ExpanderPin.Spelling ⟨parts.address, bank, Digits.value 10 parts.index⟩
            raw.toList ds :=
          ⟨⟨_, hbank ▸ hform, rfl⟩, ExpanderPin.isAddress_iff.1 haddress, _, ⟨_, hindex, rfl⟩, rfl⟩
        have hle := hshort _ ds hspelling
        omega
    · split at h
      · cases h
        exact ⟨_, rfl, rfl⟩
      · cases h
    · cases h
      exact ⟨_, rfl, rfl⟩

theorem isExpander_iff {cs : List Char} : Grammar.isExpander cs = true ↔ "MI".toList <+: cs :=
  List.isPrefixOf_iff_prefix

/-- The kind of error with which a text is refused depends on how it begins. -/
theorem kind_of_readText (hshort : ∀ p ds, ExpanderPin.Spelling p raw.toList ds →
    ds.length ≤ Digits.limit) {f : Failure} (h : readText family absent raw = .error f) :
    ∃ e, f = .config e ∧ e.kind =
      if raw = "_" then "InvalidPlacement"
      else if "MI".toList <+: raw.toList then "InvalidExpanderPin" else "UnknownPin" := by
  simp only [← isExpander_iff]
  unfold readText absentMark at h
  split_ifs at h with hmark habsent hmeant
  · cases h
    exact ⟨_, rfl, (if_pos hmark).symm⟩
  · rw [if_neg hmark, if_pos hmeant]
    cases hread : readExpander raw with
    | error g =>
      simp only [hread, Outcome.error_bind, Except.error.injEq] at h
      exact h ▸ kind_of_readExpander hshort hread
    | ok q =>
      simp only [hread, Outcome.ok_bind,
        ExpanderPin.number_eq (isWritable_of_readExpander hread)] at h
      split_ifs at h
      cases h
      exact ⟨_, rfl, rfl⟩
  · rw [if_neg hmark, if_neg hmeant]
    split at h
    · cases h
    · cases h
      exact ⟨_, rfl, rfl⟩

/-- **Texts are read by the grammar of pins.**  If no spelling of an expander pin has too long an
index: the mark of an absent pin is read where that is allowed, an expander pin from its spellings
if the bank has its number, and a pin of the chip from its names, with their numbers.  Every other
text is refused, as a misplaced mark, as a wrong expander pin if it begins like one, and as an
unknown pin otherwise; no name of a pin of a chip begins like an expander pin. -/
theorem readText_follows_grammar (family : Family) (absent : Bool) (raw : String)
    (hshort : ∀ p ds, ExpanderPin.Spelling p raw.toList ds → ds.length ≤ Digits.limit) :
    (readText family absent raw = .ok .absent ↔ raw = "_" ∧ absent = true) ∧
    (∀ p, readText family absent raw = .ok (.expander p) ↔
      (∃ ds, p.Spelling raw.toList ds) ∧ 0 ≤ p.index ∧ p.index ≤ 7) ∧
    (∀ name i, readText family absent raw = .ok (.mcu name i) ↔
      name = raw ∧ ∃ n : Nat, i = n ∧ n ≤ 99 ∧ ChipText family raw.toList n) ∧
    (∀ f, readText family absent raw = .error f → ∃ e, f = .config e ∧
      (e.kind = "InvalidPlacement" ↔ raw = "_") ∧
      (e.kind = "InvalidExpanderPin" ↔ "MI".toList <+: raw.toList) ∧
      (e.kind = "UnknownPin" ↔ raw ≠ "_" ∧ ¬"MI".toList <+: raw.toList)) ∧
    ∀ other cs n, ChipText other cs n → ¬"MI".toList <+: cs := by
  have hmark_meant : raw = "_" → ¬"MI".toList <+: raw.toList := by
    rintro rfl
    decide
  refine ⟨?_, fun p => ?_, fun name i => ?_, fun f hf => ?_, fun _ _ _ h => h.not_expander⟩
  · rw [readText_eq_ok_iff]
    constructor
    · rintro ⟨hmark, habsent⟩
      exact ⟨hmark, habsent⟩
    · rintro ⟨hmark, habsent⟩
      exact .absent hmark habsent
  · rw [readText_eq_ok_iff]
    constructor
    · intro h
      cases h with
      | expander _ _ form inBank =>
        obtain ⟨ds, hds, -⟩ := readExpander_eq_ok_iff.1 form
        exact ⟨⟨ds, hds⟩, ExpanderPin.inBank_iff.1 inBank⟩
    · rintro ⟨⟨ds, hds⟩, hbank⟩
      obtain ⟨address, hform, -⟩ := hds.form
      have hmeant := hform.meant
      exact .expander (fun hmark => hmark_meant hmark hmeant) (isExpander_iff.2 hmeant)
        (readExpander_eq_ok_iff.2 ⟨ds, hds, hshort p ds hds⟩) (ExpanderPin.inBank_iff.2 hbank)
  · rw [readText_eq_ok_iff]
    constructor
    · intro h
      cases h with
      | mcu _ _ number =>
        have htext := number?_iff_chipText.1 number
        exact ⟨rfl, _, rfl, htext.le, htext⟩
    · rintro ⟨rfl, n, rfl, -, htext⟩
      refine .mcu ?_ ?_ (number?_iff_chipText.2 htext)
      · rintro rfl
        exact htext.ne_mark rfl
      · rw [Bool.eq_false_iff]
        exact fun hmeant => htext.not_expander (isExpander_iff.1 hmeant)
  · obtain ⟨e, rfl, hkind⟩ := kind_of_readText hshort hf
    refine ⟨e, rfl, ?_⟩
    by_cases hmark : raw = "_"
    · rw [if_pos hmark] at hkind
      simp only [hkind, hmark, ne_eq]
      decide
    · rw [if_neg hmark] at hkind
      by_cases hmeant : "MI".toList <+: raw.toList
      · rw [if_pos hmeant] at hkind
        simp only [hkind, hmark, hmeant, ne_eq]
        decide
      · rw [if_neg hmeant] at hkind
        simp only [hkind, hmark, hmeant, ne_eq]
        decide

/-- An index with a zero of another script in front, a second low line and a line feed. -/
theorem readText_follows_grammar_padded :
    (∀ p ds, ExpanderPin.Spelling p "MI27_B_\u06607\n".toList ds → ds.length ≤ Digits.limit) ∧
      readText .rp2040 false "MI27_B_\u06607\n" = .ok (.expander ⟨0x27, .b, 7⟩) := by
  have hshort : ∀ p ds, ExpanderPin.Spelling p "MI27_B_\u06607\n".toList ds →
      ds.length ≤ Digits.limit := fun p ds h => Nat.le_trans h.length_le (by decide)
  have hname : ExpanderName "MI27_B_\u06607".toList 0x27 'B' ['\u0660', '7'] :=
    @ExpanderName.mk '2' '7' 'B' 2 7 ['_'] ['\u0660', '7'] (by decide) (by decide) (by decide)
      (.inr rfl) (by decide)
      (List.forall_mem_cons.2 ⟨by decide, List.forall_mem_singleton.2 (by decide)⟩)
  have hspelling : ExpanderPin.Spelling ⟨0x27, .b, 7⟩ "MI27_B_\u06607\n".toList ['\u0660', '7'] :=
    ⟨⟨0x27, ⟨_, .inr rfl, hname⟩, rfl⟩, by decide, 7, ⟨[0, 7], by decide, by decide⟩, rfl⟩
  exact ⟨hshort, ((readText_follows_grammar .rp2040 false _ hshort).2.1 _).2
    ⟨⟨_, hspelling⟩, by decide⟩⟩

end Pin

end BoardWiring
