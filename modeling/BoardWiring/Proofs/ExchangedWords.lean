import BoardWiring.Proofs.ExpressionForms
import Mathlib.Tactic.FinCases

/-!
# Exchanging the words for levels

The level of a pin of the chip stands in its expression as a word: there is one for each of the two
levels of an output, one for each pull of an input, and one for each of the two functions that set
a level.

* `Code.exchanged` is a text in which each of these words has become the other one of its kind, and
  `Code.Becomes` carries the exchange over texts in a row;
* `Name.isMute_raw` and `Name.isMute_ofText` say that no such word begins in the name of a pin;
* `Emit.becomes_expression` says that the exchange makes the expression for a pin of the chip the
  one for the other level.
-/

namespace BoardWiring

/-! ### Exchanging words -/

namespace Code

variable {s t s' t' : String} {cs xs : List Char} {w w' : List Char × List Char}

/-- The words for levels, pulls and setters, each with the word for the other one. -/
def exchanges : List (List Char × List Char) :=
  [("Level::Low".toList, "Level::High".toList), ("Level::High".toList, "Level::Low".toList),
    ("Pull::Down".toList, "Pull::Up".toList), ("Pull::Up".toList, "Pull::Down".toList),
    ("set_low".toList, "set_high".toList), ("set_high".toList, "set_low".toList)]

/-- A text, without some characters at its beginning, in which each of the words has become the
other one. -/
def exchangedAfter : Nat → List Char → List Char
  | _, [] => []
  | skip + 1, _ :: cs => exchangedAfter skip cs
  | 0, c :: cs =>
    match exchanges.find? fun w => w.1.isPrefixOf (c :: cs) with
    | some w => w.2 ++ exchangedAfter (w.1.length - 1) cs
    | none => c :: exchangedAfter 0 cs

/-- A text in which each of the words for levels, pulls and setters has become the other one. -/
def exchanged (s : String) : String := String.ofList (exchangedAfter 0 s.toList)

example : exchanged "Pull::Up, Level::Low, set_low(), Pull::None" =
    "Pull::Down, Level::High, set_high(), Pull::None" := by decide +kernel

theorem exchangedAfter_length : exchangedAfter xs.length (xs ++ cs) = exchangedAfter 0 cs := by
  induction xs with
  | nil => rfl
  | cons x xs ih => exact ih

theorem exchanges_apart :
    ∀ w ∈ exchanges, ∀ w' ∈ exchanges, w.1 <+: w'.1 → w = w' := by
  decide +kernel

/-- A character at which no word begins stays as it is. -/
theorem exchangedAfter_cons {c : Char} (h : ∀ w ∈ exchanges, ¬w.1 <+: c :: cs) :
    exchangedAfter 0 (c :: cs) = c :: exchangedAfter 0 cs := by
  have hfind : (exchanges.find? fun w => w.1.isPrefixOf (c :: cs)) = none :=
    List.find?_eq_none.2 fun w hw hpre => h w hw (List.isPrefixOf_iff_prefix.1 hpre)
  rw [exchangedAfter, hfind]

theorem exchangedAfter_word (hw : w ∈ exchanges) :
    exchangedAfter 0 (w.1 ++ cs) = w.2 ++ exchangedAfter 0 cs := by
  have hne : w.1 ≠ [] := by
    have hall : ∀ w ∈ exchanges, w.1 ≠ [] := by decide
    exact hall w hw
  obtain ⟨c, ds, hword⟩ := List.exists_cons_of_ne_nil hne
  have hfind : (exchanges.find? fun w => w.1.isPrefixOf (c :: (ds ++ cs))) = some w := by
    have htext : c :: (ds ++ cs) = w.1 ++ cs := by rw [hword, List.cons_append]
    rw [htext]
    cases hfound : exchanges.find? fun w' => w'.1.isPrefixOf (w.1 ++ cs) with
    | none =>
      have hmissed := List.find?_eq_none.1 hfound w hw
      exact absurd (List.isPrefixOf_iff_prefix.2 (List.prefix_append _ _)) hmissed
    | some w' =>
      -- Of two words that begin one text, one begins the other.
      have hpre := List.find?_some hfound
      rw [List.isPrefixOf_iff_prefix] at hpre
      have hw' := List.mem_of_find?_eq_some hfound
      rcases List.prefix_or_prefix_of_prefix hpre (List.prefix_append _ _) with h | h
      · rw [exchanges_apart w' hw' w hw h]
      · rw [exchanges_apart w hw w' hw' h]
  have hlength : w.1.length - 1 = ds.length := by rw [hword, List.length_cons, Nat.add_sub_cancel]
  rw [hword, List.cons_append, exchangedAfter, hfind]
  simp only [hlength, exchangedAfter_length]

/-- One text becomes another one, whatever follows. -/
def Becomes (s t : String) : Prop :=
  ∀ cs, exchangedAfter 0 (s.toList ++ cs) = t.toList ++ exchangedAfter 0 cs

theorem Becomes.exchanged_eq (h : Becomes s t) : exchanged s = t := by
  have hlist := h []
  rw [List.append_nil] at hlist
  rw [exchanged, hlist, exchangedAfter, List.append_nil, String.ofList_toList]

theorem Becomes.append (h : Becomes s t) (h' : Becomes s' t') :
    Becomes (s ++ s') (t ++ t') := by
  intro cs
  rw [String.toList_append, String.toList_append, List.append_assoc, h, h', List.append_assoc]

theorem becomes_word (hw : (s.toList, t.toList) ∈ exchanges) : Becomes s t :=
  fun _ => exchangedAfter_word hw

/-- No word begins in a text, whatever follows. -/
def isSteady : List Char → Bool
  | [] => true
  | c :: cs =>
    (exchanges.all fun w => !w.1.isPrefixOf (c :: cs) && !(c :: cs).isPrefixOf w.1) && isSteady cs

theorem exchangedAfter_steady (h : isSteady xs = true) :
    exchangedAfter 0 (xs ++ cs) = xs ++ exchangedAfter 0 cs := by
  induction xs with
  | nil => rfl
  | cons x xs ih =>
    rw [isSteady, Bool.and_eq_true, List.all_eq_true] at h
    have hstart : ∀ w ∈ exchanges, ¬w.1 <+: x :: (xs ++ cs) := by
      intro w hw hpre
      have happart := h.1 w hw
      rw [Bool.and_eq_true, Bool.not_eq_true', Bool.not_eq_true', ← Bool.not_eq_true,
        ← Bool.not_eq_true, List.isPrefixOf_iff_prefix, List.isPrefixOf_iff_prefix] at happart
      rcases List.prefix_or_prefix_of_prefix hpre (List.prefix_append (x :: xs) cs) with h | h
      · exact happart.1 h
      · exact happart.2 h
    rw [List.cons_append, exchangedAfter_cons hstart, ih h.2, List.cons_append]

/-- A fixed text is given by its characters. -/
theorem becomes_ofList (h : isSteady xs = true) :
    Becomes (String.ofList xs) (String.ofList xs) := by
  intro cs
  rw [String.toList_ofList, exchangedAfter_steady h]

/-- A text without the characters that begin words, or follow the P at the beginning of one. -/
def IsMute (s : String) : Prop := 'L' ∉ s.toList ∧ 's' ∉ s.toList ∧ 'u' ∉ s.toList

theorem IsMute.append (hs : IsMute s) (ht : IsMute t) : IsMute (s ++ t) := by
  simp only [IsMute, String.toList_append, List.mem_append, not_or]
  exact ⟨⟨hs.1, ht.1⟩, ⟨hs.2.1, ht.2.1⟩, ⟨hs.2.2, ht.2.2⟩⟩

theorem exchanges_head {c : Char} (hw : w ∈ exchanges) (hpre : w.1 <+: c :: cs) :
    c = 'L' ∨ c = 's' ∨ cs.head? = some 'u' := by
  have hall : ∀ w ∈ exchanges, ∃ d e ds, w.1 = d :: e :: ds ∧ (d = 'L' ∨ d = 's' ∨ e = 'u') := by
    intro w hw
    fin_cases hw <;> exact ⟨_, _, _, rfl, by decide⟩
  obtain ⟨d, e, ds, hword, hstart⟩ := hall w hw
  obtain ⟨es, hes⟩ := hpre
  rw [hword, List.cons_append, List.cons_append] at hes
  obtain ⟨rfl, rfl⟩ := List.cons.inj hes
  rcases hstart with h | h | h
  · exact Or.inl h
  · exact Or.inr (Or.inl h)
  · exact Or.inr (Or.inr (congrArg some h))

/-- A mute text stays as it is before a text that does not begin with an u. -/
theorem Becomes.mute (hs : IsMute s) {c : Char} (hhead : t.toList.head? = some c)
    (hc : c ≠ 'u') (h : Becomes t t') : Becomes (s ++ t) (s ++ t') := by
  intro cs
  obtain ⟨ts, hts⟩ := List.head?_eq_some_iff.1 hhead
  rw [String.toList_append, String.toList_append, List.append_assoc, List.append_assoc, ← h]
  obtain ⟨hl, hset, hu⟩ := hs
  generalize s.toList = xs at hl hset hu
  induction xs with
  | nil => rfl
  | cons x xs ih =>
    rw [List.mem_cons, not_or] at hl hset hu
    have hnext : (xs ++ (t.toList ++ cs)).head? ≠ some 'u' := by
      cases xs with
      | nil => simpa [hts] using hc
      | cons y ys =>
        rw [List.mem_cons, not_or] at hu
        simpa using Ne.symm hu.2.1
    have hstart : ∀ w ∈ exchanges, ¬w.1 <+: x :: (xs ++ (t.toList ++ cs)) := by
      intro w hw hpre
      rcases exchanges_head hw hpre with rfl | rfl | h
      · exact hl.1 rfl
      · exact hset.1 rfl
      · exact hnext h
    rw [List.cons_append, exchangedAfter_cons hstart, ih hl.2 hset.2 hu.2, List.cons_append]

end Code

/-! ### Names -/

namespace Name

open Code

variable {family : Family} {raw : String} {c : Char} {n : Nat}

theorem mem_ofText {s : String} (h : c ∈ (ofText s).toList) :
    c ∈ "none_".toList ∨ ∃ d ∈ s.toList, c = d.toLower := by
  by_cases hjoined : joined s.toList = []
  · have hname : ofText s = "none" := by rw [ofText, hjoined]; rfl
    rw [hname] at h
    have hnone : "none".toList ⊆ "none_".toList := by decide
    exact Or.inl (hnone h)
  · rw [toList_ofText hjoined] at h
    obtain ⟨d, hd, rfl⟩ := List.mem_map.1 h
    rcases mem_intercalate hd with hd | ⟨w, hw, hd⟩
    · rw [List.mem_singleton.1 hd]
      exact Or.inl (by decide)
    · exact Or.inr ⟨d, (Text.mem_pieces (List.mem_filter.1 hw).1 hd).1, rfl⟩

theorem toLower_cases (c : Char) : c.toLower = c ∨ c.toLower.toNat = c.toNat + 32 := by
  unfold Char.toLower
  split_ifs with hupper
  · right
    have hlast : c.val.toNat ≤ 'Z'.val.toNat := hupper.2
    have hz : 'Z'.val.toNat = 90 := rfl
    have hshift : ('a'.val - 'A'.val).toNat = 32 := rfl
    change (c.val + ('a'.val - 'A'.val)).toNat = c.val.toNat + 32
    rw [UInt32.toNat_add, hshift]
    omega
  · exact Or.inl rfl

/-- A letter of the name for a text is a letter of the text, or its capital is. -/
theorem not_mem_ofText {u : Char} (hnone : c ∉ "none_".toList) (hu : c.toNat = u.toNat + 32)
    (hsmall : c ∉ raw.toList) (hcapital : u ∉ raw.toList) : c ∉ (ofText raw).toList := by
  intro hmem
  rcases mem_ofText hmem with h | ⟨d, hd, rfl⟩
  · exact hnone h
  · rcases toLower_cases d with heq | heq
    · rw [heq] at hsmall
      exact hsmall hd
    · have hd' : d = u := by
        rw [← Char.toNat_inj]
        omega
      exact hcapital (hd' ▸ hd)

theorem isMute_raw (h : Grammar.number? family raw.toList = some n) : IsMute raw :=
  ⟨Grammar.not_mem_of_number? (by decide) (by decide) (by decide) (by decide) h,
    Grammar.not_mem_of_number? (by decide) (by decide) (by decide) (by decide) h,
    Grammar.not_mem_of_number? (by decide) (by decide) (by decide) (by decide) h⟩

theorem isMute_ofText (h : Grammar.number? family raw.toList = some n) :
    IsMute (ofText raw) := by
  have hraw := isMute_raw h
  have hbinding := Pin.isBinding_of_named h
  refine ⟨fun hl => absurd (hbinding.chars _ hl) (by decide), ?_, ?_⟩
  · exact not_mem_ofText (u := 'S') (by decide) (by decide) hraw.2.1
      (Grammar.not_mem_of_number? (by decide) (by decide) (by decide) (by decide) h)
  · exact not_mem_ofText (u := 'U') (by decide) (by decide) hraw.2.2
      (Grammar.not_mem_of_number? (by decide) (by decide) (by decide) (by decide) h)

theorem isMute_signed (i : Int) : IsMute (Digits.signed i) := by
  have hall := Digits.forall_mem_signed (P := fun c => c ≠ 'L' ∧ c ≠ 's' ∧ c ≠ 'u') (by decide)
    (by decide) i
  exact ⟨fun h => (hall _ h).1 rfl, fun h => (hall _ h).2.1 rfl, fun h => (hall _ h).2.2 rfl⟩

theorem isMute_decimal (n : Nat) : IsMute (Digits.decimal n) := by
  have hsigned : Digits.signed n = Digits.decimal n := by
    rw [Digits.signed, Digits.signedIn, if_neg (by omega), Int.natAbs_natCast, Digits.decimal]
  rw [← hsigned]
  exact isMute_signed n

end Name

/-! ### Expressions -/

namespace Emit

open Code

variable {family : Family} {activeLow : Bool} {role : Role} {f : Form}

namespace Form

/-- The text between what tells a pin of the chip and the word for its level. -/
def stem (family : Family) : Form → String
  | .output =>
    match family with
    | .stm32 => ", " ++ hal family ++ "::gpio::"
    | .nrf52 | .rp2040 => "), " ++ hal family ++ "::gpio::"
    | .esp32 => ".downgrade_output()).unwrap(); pin."
  | _ =>
    match family with
    | .stm32 => ", " ++ hal family ++ "::gpio::"
    | .nrf52 | .rp2040 => "), " ++ hal family ++ "::gpio::"
    | .esp32 => ".downgrade_input()).unwrap(); pin.set_pull(" ++ hal family ++ "::gpio::"

/-- The word for the level of an output, or for the pull of an input. -/
def word (family : Family) (activeLow : Bool) : Form → String
  | .output =>
    match family with
    | .esp32 => setter activeLow
    | _ => "Level::" ++ level activeLow
  | _ => "Pull::" ++ pull activeLow

theorem middle_append_idle (hf : f.isRemote = false) :
    middle family f ++ idle family activeLow f = stem family f ++ word family activeLow f := by
  cases f with
  | output => cases family <;> cases activeLow <;> rfl
  | input => cases family <;> cases activeLow <;> rfl
  | wake => cases family <;> cases activeLow <;> rfl
  | remoteOutput => cases hf
  | remoteInput => cases hf

theorem becomes_hal (family : Family) : Becomes (hal family) (hal family) := by
  cases family <;> exact becomes_ofList (by decide)

theorem becomes_opening (hf : f.isRemote = false) :
    Becomes (opening family f) (opening family f) := by
  have hlead : Becomes (lead family false) (lead family false) := by
    cases family with
    | esp32 => exact (becomes_ofList (by decide)).append (becomes_hal .esp32)
    | _ => exact becomes_hal _
  have hhead : Becomes (head family f) (head family f) := by
    cases family <;> cases f <;> exact becomes_ofList (by decide)
  have hbridge : Becomes (bridge family f) (bridge family f) := by
    cases f with
    | output | input =>
      cases family with
      | stm32 | esp32 => exact becomes_ofList (by decide)
      | _ => exact (becomes_hal _).append (becomes_ofList (by decide))
    | wake => exact (becomes_hal _).append (becomes_ofList (by decide))
    | remoteOutput | remoteInput => cases hf
  rw [opening, hf]
  exact hlead.append (hhead.append hbridge)

theorem becomes_stem (hf : f.isRemote = false) : Becomes (stem family f) (stem family f) := by
  have hgpio : ∀ s : String, Becomes s s →
      Becomes (s ++ hal family ++ "::gpio::") (s ++ hal family ++ "::gpio::") :=
    fun s hs => (hs.append (becomes_hal family)).append (becomes_ofList (by decide))
  cases f with
  | output =>
    cases family with
    | esp32 => exact becomes_ofList (by decide)
    | _ => exact hgpio _ (becomes_ofList (by decide))
  | input | wake => cases family <;> exact hgpio _ (becomes_ofList (by decide))
  | remoteOutput | remoteInput => cases hf

theorem becomes_word (family : Family) (activeLow : Bool) (f : Form) :
    Becomes (word family activeLow f) (word family (!activeLow) f) := by
  refine Code.becomes_word ?_
  cases family <;> cases f <;> cases activeLow <;> decide

theorem head?_stem (family : Family) (f : Form) : ∃ c, (stem family f).toList.head? = some c ∧
    c ≠ 'u' := by
  cases family <;> cases f <;> exact ⟨_, rfl, by decide⟩

theorem becomes_ending (hf : f.isRemote = false) (number : Int) :
    Becomes (ending family number f) (ending family number f) := by
  have hdrive : ∀ s : String, Becomes s s →
      Becomes (", " ++ hal family ++ s) (", " ++ hal family ++ s) :=
    fun s hs => ((becomes_ofList (by decide)).append (becomes_hal family)).append hs
  cases f with
  | output =>
    cases family with
    | stm32 | nrf52 => exact hdrive _ (becomes_ofList (by decide))
    | _ => exact becomes_ofList (by decide)
  | input => cases family <;> exact becomes_ofList (by decide)
  | wake =>
    -- The number of the interrupt line stands before a dot.
    have hline : Becomes (Digits.signed number ++ ".degrade())")
        (Digits.signed number ++ ".degrade())") :=
      Becomes.mute (Name.isMute_signed number) (c := '.') (by decide) (by decide)
        (becomes_ofList (by decide))
    unfold ending
    simp only [String.append_assoc]
    exact (becomes_ofList (by decide)).append hline
  | remoteOutput | remoteInput => cases hf

end Form

/-- The expression for a pin of the chip becomes the one for the other level. -/
theorem becomes_expression {name : String} {number : Int} {n : Nat}
    (hname : Grammar.number? family name.toList = some n)
    (h : roleFault? family (.mcu name number) role = none) :
    Becomes (expression family (.mcu name number) role activeLow)
      (expression family (.mcu name number) role (!activeLow)) := by
  have hlow := @expression_chip family activeLow role name number h
  have hhigh := @expression_chip family (!activeLow) role name number h
  have hf : (Form.of family role (.mcu name number)).isRemote = false := Form.isRemote_of _ _ _
  rw [hlow, hhigh]
  generalize Form.of family role (.mcu name number) = f at hf
  have hidle : ∀ a s, Form.middle family f ++ (Form.idle family a f ++ s) =
      Form.stem family f ++ (Form.word family a f ++ s) := by
    intro a s
    rw [← String.append_assoc, Form.middle_append_idle hf, String.append_assoc]
  obtain ⟨c, hc, hne⟩ := Form.head?_stem family f
  rw [hidle, hidle]
  exact (Form.becomes_opening hf).append <|
    Becomes.mute (Name.isMute_raw hname) (Text.head?_append hc) hne <|
      (Form.becomes_stem hf).append <|
        (Form.becomes_word family activeLow f).append (Form.becomes_ending hf number)

end Emit

end BoardWiring
