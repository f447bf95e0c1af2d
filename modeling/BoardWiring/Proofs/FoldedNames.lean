import BoardWiring.Proofs.DistinctNames
import Mathlib.Data.List.Chain

/-!
# Names as a normal form of texts

The name for a text keeps its words in lower case and one low line between any two of them.  It
depends on nothing else, so the name for a name is that name itself.

* `Name.IsFolded` are the texts of that form, `Name.isFolded_ofText` says that every name is one,
  and `Name.ofText_of_isFolded` that every such text is its own name;
* `Name.words_padded` says that the words do not depend on what stands at the ends of a text, and
  `Name.joined_eq_of_map_toLower` that the name does not depend on the case of letters;
* `Name.ofText_normalises` is all of this about one text.
-/

namespace BoardWiring

namespace Text

/-- Replacing characters by others of the same kind replaces them in the pieces. -/
theorem pieces_map {cut : Char → Bool} {f : Char → Char} (h : ∀ c, cut (f c) = cut c)
    (cs : List Char) : pieces cut (cs.map f) = (pieces cut cs).map (List.map f) := by
  induction cs with
  | nil => rfl
  | cons c cs ih =>
    obtain ⟨p, ps, hp⟩ := List.exists_cons_of_ne_nil (pieces_ne_nil cut cs)
    rw [List.map_cons, pieces, pieces, h, ih, hp]
    split_ifs <;> rfl

end Text

namespace Name

variable {cs ds w : List Char}

/-! ### Words -/

theorem words_append_cut {c : Char} (hc : isWordChar c = false) :
    words (cs ++ c :: ds) = words cs ++ words ds := by
  rw [words, Code.pieces_append_cut (by simp [hc]), List.filter_append]
  rfl

theorem words_cons_cut {c : Char} (hc : isWordChar c = false) : words (c :: cs) = words cs :=
  @words_append_cut [] cs c hc

theorem words_word (hne : w ≠ []) (h : ∀ c ∈ w, isWordChar c = true) : words w = [w] := by
  rw [words, Code.pieces_eq_singleton fun c hc => by simp [h c hc]]
  simp [hne]

theorem words_eq_nil (h : ∀ c ∈ cs, isWordChar c = false) : words cs = [] := by
  induction cs with
  | nil => rfl
  | cons c cs ih =>
    rw [words_cons_cut (h c List.mem_cons_self)]
    exact ih fun d hd => h d (List.mem_cons_of_mem c hd)

/-- **What is no letter or digit does not count at the ends of a text.** -/
theorem words_padded {before after : List Char} (hbefore : ∀ c ∈ before, isWordChar c = false)
    (hafter : ∀ c ∈ after, isWordChar c = false) (cs : List Char) :
    words (before ++ cs ++ after) = words cs := by
  have hend : words (cs ++ after) = words cs := by
    cases after with
    | nil => rw [List.append_nil]
    | cons c after =>
      obtain ⟨hc, hrest⟩ := List.forall_mem_cons.1 hafter
      rw [words_append_cut hc, words_eq_nil hrest, List.append_nil]
  rw [List.append_assoc, ← hend]
  induction before with
  | nil => rfl
  | cons c before ih =>
    obtain ⟨hc, hrest⟩ := List.forall_mem_cons.1 hbefore
    rw [List.cons_append, words_cons_cut hc, ih hrest]

theorem isWordChar_toLower (c : Char) : isWordChar c.toLower = isWordChar c := by
  by_cases hascii : c.toNat < 128
  · exact of_ascii (P := fun c => isWordChar c.toLower = isWordChar c) (by decide) hascii
  · rw [toLower_of_not_capital (by omega)]

theorem map_intercalate {f : Char → Char} {sep : List Char} (ws : List (List Char)) :
    (sep.intercalate ws).map f = (sep.map f).intercalate (ws.map (List.map f)) := by
  induction ws with
  | nil => rfl
  | cons w ws ih =>
    cases ws with
    | nil => simp
    | cons v vs =>
      rw [List.intercalate_cons_cons, List.map_append, List.map_append, ih]
      simp [List.intercalate_cons_cons]

theorem words_map_toLower (cs : List Char) :
    words (cs.map Char.toLower) = (words cs).map (List.map Char.toLower) := by
  rw [words, words, Text.pieces_map fun c => congrArg (! ·) (isWordChar_toLower c),
    List.filter_map]
  refine congrArg (List.map _) (List.filter_congr fun w _ => ?_)
  cases w <;> rfl

/-- **The name for a text does not depend on the case of letters.** -/
theorem joined_eq_of_map_toLower (h : cs.map Char.toLower = ds.map Char.toLower) :
    joined cs = joined ds := by
  have hlower : ∀ cs : List Char,
      joined cs = ['_'].intercalate (words (cs.map Char.toLower)) := by
    intro cs
    rw [joined, map_intercalate, words_map_toLower]
    rfl
  rw [hlower, hlower, h]

/-! ### The form of names -/

/-- A small letter or a digit. -/
def isSmall (c : Char) : Bool := c.isLower || c.isDigit

theorem isSmall_iff {c : Char} :
    isSmall c = true ↔ 'a' ≤ c ∧ c ≤ 'z' ∨ '0' ≤ c ∧ c ≤ '9' := by
  rw [isSmall, Bool.or_eq_true, isLower_iff, isDigit_iff]

/-- One or more words of small letters and digits, with a low line between any two. -/
inductive IsFolded : List Char → Prop where
  | word {w : List Char} (nonempty : w ≠ []) (small : ∀ c ∈ w, isSmall c = true) : IsFolded w
  | join {w cs : List Char} (nonempty : w ≠ []) (small : ∀ c ∈ w, isSmall c = true)
      (rest : IsFolded cs) : IsFolded (w ++ '_' :: cs)

theorem isSmall_toLower {c : Char} (h : isWordChar c = true) : isSmall c.toLower = true := by
  have hbinding : isBindingChar c.toLower = true := isBindingChar_toLower (Or.inl h)
  have hline : c.toLower ≠ '_' := by
    intro heq
    have hword := isWordChar_toLower c
    rw [heq, h] at hword
    cases hword
  simpa [isBindingChar, isSmall, hline] using hbinding

theorem isWordChar_of_isSmall {c : Char} (h : isSmall c = true) : isWordChar c = true := by
  rw [isSmall, Bool.or_eq_true] at h
  rcases h with h | h <;> simp [isWordChar, isAlphanum_eq, h]

theorem toLower_of_isSmall {c : Char} (h : isSmall c = true) : c.toLower = c := by
  rw [isSmall, Bool.or_eq_true] at h
  rcases h with h | h
  · have hfirst : 97 ≤ c.toNat := (isLower_iff.1 h).1
    exact toLower_of_not_capital (by omega)
  · exact toLower_of_isDigit h

theorem ne_line_of_isSmall {c : Char} (h : isSmall c = true) : c ≠ '_' := by
  rintro rfl
  cases h

theorem isFolded_intercalate {ws : List (List Char)} (hne : ws ≠ [])
    (h : ∀ w ∈ ws, w ≠ [] ∧ ∀ c ∈ w, isSmall c = true) : IsFolded (['_'].intercalate ws) := by
  induction ws with
  | nil => exact absurd rfl hne
  | cons w ws ih =>
    obtain ⟨⟨hw, hsmall⟩, hws⟩ := List.forall_mem_cons.1 h
    cases ws with
    | nil =>
      rw [List.intercalate_singleton]
      exact .word hw hsmall
    | cons v vs =>
      rw [List.intercalate_cons_cons, List.append_assoc]
      exact .join hw hsmall (ih (List.cons_ne_nil v vs) hws)

theorem isFolded_joined (h : joined cs ≠ []) : IsFolded (joined cs) := by
  rw [joined, map_intercalate] at h ⊢
  refine isFolded_intercalate (fun hnil => h (by rw [hnil]; rfl)) fun w hw => ?_
  obtain ⟨v, hv, rfl⟩ := List.mem_map.1 hw
  obtain ⟨hpiece, hne⟩ := List.mem_filter.1 hv
  refine ⟨by simpa using hne, fun c hc => ?_⟩
  obtain ⟨d, hd, rfl⟩ := List.mem_map.1 hc
  exact isSmall_toLower (by simpa using (Text.mem_pieces hpiece hd).2)

/-- **Every name is folded.** -/
theorem isFolded_ofText (s : String) : IsFolded (ofText s).toList := by
  by_cases h : joined s.toList = []
  · have hnone : ofText s = "none" := by simp [ofText, h]
    rw [hnone]
    exact .word (by decide) (List.all_eq_true.1 (by decide))
  · rw [toList_ofText h]
    exact isFolded_joined h

theorem IsFolded.ne_nil (h : IsFolded cs) : cs ≠ [] := by
  cases h with
  | word nonempty _ => exact nonempty
  | join _ _ _ => simp

theorem IsFolded.words_eq (h : IsFolded cs) :
    ['_'].intercalate (words cs) = cs ∧ words cs ≠ [] := by
  induction h with
  | word nonempty small =>
    rw [words_word nonempty fun c hc => isWordChar_of_isSmall (small c hc)]
    exact ⟨List.intercalate_singleton, List.cons_ne_nil _ _⟩
  | @join w cs nonempty small _ ih =>
    rw [words_append_cut (by decide),
      words_word nonempty fun c hc => isWordChar_of_isSmall (small c hc), List.singleton_append,
      List.intercalate_cons_of_ne_nil ih.2, ih.1]
    exact ⟨by simp, List.cons_ne_nil _ _⟩

theorem IsFolded.chars (h : IsFolded cs) : ∀ c ∈ cs, isSmall c = true ∨ c = '_' := by
  induction h with
  | word _ small => exact fun c hc => Or.inl (small c hc)
  | join _ small _ ih =>
    exact List.forall_mem_append.2 ⟨fun c hc => Or.inl (small c hc),
      List.forall_mem_cons.2 ⟨Or.inr rfl, ih⟩⟩

/-- **A folded text is its own name.** -/
theorem ofText_of_isFolded {s : String} (h : IsFolded s.toList) : ofText s = s := by
  have hlower : s.toList.map Char.toLower = s.toList.map id := by
    refine List.map_congr_left fun c hc => ?_
    rcases h.chars c hc with hc | rfl
    · exact toLower_of_isSmall hc
    · decide
  have hjoined : joined s.toList = s.toList := by
    rw [joined, h.words_eq.1, hlower, List.map_id]
  rw [← String.toList_inj, toList_ofText (by rw [hjoined]; exact h.ne_nil), hjoined]

theorem ends_of_small (h : ∀ c ∈ w, isSmall c = true) :
    w.head? ≠ some '_' ∧ w.getLast? ≠ some '_' :=
  ⟨fun hhead => ne_line_of_isSmall (h _ (List.mem_of_mem_head? hhead)) rfl,
    fun hlast => ne_line_of_isSmall (h _ (List.mem_of_mem_getLast? hlast)) rfl⟩

theorem IsFolded.head?_ne (h : IsFolded cs) : cs.head? ≠ some '_' := by
  cases h with
  | word _ small => exact (ends_of_small small).1
  | join nonempty small _ =>
    rw [List.head?_append_of_ne_nil _ nonempty]
    exact (ends_of_small small).1

theorem IsFolded.getLast?_ne (h : IsFolded cs) : cs.getLast? ≠ some '_' := by
  induction h with
  | word _ small => exact (ends_of_small small).2
  | join _ _ rest ih =>
    rwa [List.getLast?_append_of_ne_nil _ (List.cons_ne_nil _ _),
      List.getLast?_cons_of_ne_nil rest.ne_nil]

theorem IsFolded.not_isInfix (h : IsFolded cs) : ¬['_', '_'] <:+: cs := by
  suffices hchain : cs.IsChain fun c d => ¬(c = '_' ∧ d = '_') by
    intro hmem
    have hpair := hchain.infix hmem
    exact List.isChain_pair.1 hpair ⟨rfl, rfl⟩
  have hword : ∀ {w : List Char}, (∀ c ∈ w, isSmall c = true) →
      w.IsChain fun c d => ¬(c = '_' ∧ d = '_') := by
    intro w h
    rw [List.isChain_iff_forall_rel_of_append_cons_cons]
    rintro c d before after rfl ⟨rfl, -⟩
    exact ne_line_of_isSmall (h '_' (by simp)) rfl
  induction h with
  | word _ small => exact hword small
  | join _ small rest ih =>
    refine (hword small).append (List.isChain_cons.2 ⟨fun c hc hline => ?_, ih⟩)
      fun c hc d _ hline => ?_
    · exact rest.head?_ne (hline.2 ▸ hc)
    · exact (ends_of_small small).2 (hline.1 ▸ hc)

end Name

namespace Pin

theorem isLower_of_isHead {cs : List Char} (h : isHead cs = true) :
    ∃ c rest, cs = c :: rest ∧ c.isLower = true := by
  unfold isHead at h
  split at h
  · exact ⟨_, _, rfl, by decide⟩
  · exact ⟨_, _, rfl, by decide⟩
  · exact ⟨_, _, rfl, by decide⟩
  · exact ⟨_, _, rfl, by decide⟩
  · cases h

end Pin

namespace Name

/-- **The name for a text is a normal form of it.**  Whatever the text, its name is made of small
letters, digits and low lines, which neither begin nor end it and stand alone, and it is its own
name.  It depends neither on what is put at the ends of the text, letters and digits aside, nor on
the case of letters; and the name for a pin that a text stands for begins with a letter. -/
theorem ofText_normalises (raw : String) :
    ofText raw ≠ "" ∧
      (∀ c ∈ (ofText raw).toList, 'a' ≤ c ∧ c ≤ 'z' ∨ '0' ≤ c ∧ c ≤ '9' ∨ c = '_') ∧
      (ofText raw).toList.head? ≠ some '_' ∧ (ofText raw).toList.getLast? ≠ some '_' ∧
      ¬['_', '_'] <:+: (ofText raw).toList ∧
      ofText (ofText raw) = ofText raw ∧
      (∀ before after : String, (∀ c ∈ before.toList ++ after.toList, c.isAlphanum = false) →
        ofText (before ++ raw ++ after) = ofText raw) ∧
      (∀ other : String, other.toList.map Char.toLower = raw.toList.map Char.toLower →
        ofText other = ofText raw) ∧
      (∀ family absent p, Pin.readText family absent raw = .ok p →
        ∃ c rest, (ofText p.text).toList = c :: rest ∧ c.isLower = true) := by
  have hfolded := isFolded_ofText raw
  have hname : ∀ s t : String, joined s.toList = joined t.toList → ofText s = ofText t := by
    intro s t h
    rw [ofText, ofText, h]
  refine ⟨fun h => ?_, fun c hc => ?_, hfolded.head?_ne, hfolded.getLast?_ne,
    hfolded.not_isInfix, ofText_of_isFolded hfolded, fun before after h => ?_, fun other h => ?_,
    fun family absent p h => ?_⟩
  · rw [h] at hfolded
    exact hfolded.ne_nil rfl
  · rcases hfolded.chars c hc with hsmall | rfl
    · exact (isSmall_iff.1 hsmall).imp id Or.inl
    · exact Or.inr (Or.inr rfl)
  · obtain ⟨hbefore, hafter⟩ := List.forall_mem_append.1 h
    refine hname _ _ ?_
    rw [String.toList_append, String.toList_append, joined, words_padded hbefore hafter]
    rfl
  · exact hname _ _ (joined_eq_of_map_toLower h)
  · exact Pin.isLower_of_isHead (Pin.readText_eq_ok_iff.1 h).isHead_name

/-- A spelling of a pin with a digit of another script and a line feed at its end. -/
def frayedSpelling : String := "PA1\u0661\n"

/-- Its name is that of the same spelling in parentheses and in small letters, and begins with a
letter. -/
theorem ofText_normalises_frayed :
    ofText ("__(" ++ frayedSpelling ++ "\u0662)") = ofText frayedSpelling ∧
      ofText "pa1\u0661\n" = ofText frayedSpelling ∧
      Pin.readText .stm32 false frayedSpelling = .ok (.mcu frayedSpelling 11) ∧
      ∃ c rest, (ofText frayedSpelling).toList = c :: rest ∧ c.isLower = true := by
  obtain ⟨-, -, -, -, -, -, hpadded, hcase, hpin⟩ := ofText_normalises frayedSpelling
  have hread : Pin.readText .stm32 false frayedSpelling = .ok (.mcu frayedSpelling 11) :=
    Pin.readText_eq_ok_iff.2
      (@Pin.Spelt.mcu .stm32 false frayedSpelling 11 (by decide) (by decide) (by decide))
  exact ⟨hpadded "__(" "\u0662)" (by simp),
    hcase "pa1\u0661\n" (by decide), hread,
    hpin .stm32 false (.mcu frayedSpelling 11) hread⟩

end Name

end BoardWiring
