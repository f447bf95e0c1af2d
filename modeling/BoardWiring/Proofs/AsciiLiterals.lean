import BoardWiring.Proofs.LiteralReading

/-!
# Literals in ASCII

A literal in ASCII holds the characters from the space to the tilde only: all others are written by
the numbers of their UTF-16 units, one unit or a pair of surrogates.  It is read back as the text
that it was written for, unless two halves of that text stand side by side like the units of a
character.

* `JsonString.AreVisible` are the texts of such characters, and `JsonString.areVisible_looseLiteral`
  says that a literal is one;
* `JsonString.isWriting_escapePoint` says that every code point is read back, the characters beyond
  0xFFFF from their two units, and `JsonString.read?_looseInside` that a whole literal is.
-/

namespace BoardWiring

namespace JsonString

/-- A character of ASCII that is not a control character. -/
def IsVisible (c : Char) : Prop := 0x20 ≤ c.toNat ∧ c.toNat < 0x7f

instance (c : Char) : Decidable (IsVisible c) := inferInstanceAs (Decidable (_ ∧ _))

/-- A text of such characters. -/
def AreVisible (cs : List Char) : Prop := ∀ c ∈ cs, IsVisible c

instance (cs : List Char) : Decidable (AreVisible cs) :=
  decidable_of_iff (cs.all fun c => decide (IsVisible c)) (by simp [AreVisible])

variable {c : Char}

theorem areVisible_append {cs ds : List Char} :
    AreVisible (cs ++ ds) ↔ AreVisible cs ∧ AreVisible ds := List.forall_mem_append

theorem areVisible_cons {cs : List Char} : AreVisible (c :: cs) ↔ IsVisible c ∧ AreVisible cs :=
  List.forall_mem_cons

/-- A character is written by a backslash and a letter, as itself, or by its units. -/
theorem escapeAscii_cases {P : List Char → Prop} (c : Char)
    (short : ∀ e, shortEscape? c = some e → P ['\\', e])
    (itself : shortEscape? c = none → IsVisible c → P [c])
    (unit : c.toNat < 0x10000 → P (unitEscape c.toNat))
    (pair : 0x10000 ≤ c.toNat → P (unitEscape (0xd800 + (c.toNat - 0x10000) / 0x400) ++
      unitEscape (0xdc00 + (c.toNat - 0x10000) % 0x400))) : P (escapeAscii c) := by
  unfold escapeAscii
  split
  · exact short _ ‹_›
  · split_ifs with hvisible
    · exact itself ‹_› hvisible
    · unfold units
      split_ifs with hunit
      · rw [List.flatMap_singleton]
        exact unit hunit
      · rw [List.flatMap_cons, List.flatMap_singleton]
        exact pair (Nat.le_of_not_lt hunit)

/-! ### The characters of a literal -/

/-- What stands between the quotes of the literal of a text in ASCII. -/
def looseInside (t : LooseText) : List Char := t.points.flatMap escapePoint

theorem toList_looseLiteral (t : LooseText) :
    (looseLiteral t).toList = '"' :: (looseInside t ++ ['"']) := by
  rw [looseLiteral, String.toList_ofList, looseLiteralChars, looseInside, List.cons_append]

theorem areVisible_unitEscape (n : Nat) : AreVisible (unitEscape n) :=
  areVisible_cons.2 ⟨by decide, areVisible_cons.2 ⟨by decide, forall_mem_hexFixed (by decide) n⟩⟩

theorem areVisible_escapeAscii (c : Char) : AreVisible (escapeAscii c) := by
  have hletters : ∀ r ∈ shortEscapes, IsVisible r.2 := by decide
  refine escapeAscii_cases (P := AreVisible) c (fun e hshort => ?_) (fun _ hvisible => ?_)
    (fun _ => areVisible_unitEscape _) fun _ => ?_
  · exact areVisible_cons.2 ⟨by decide, List.forall_mem_singleton.2
      (hletters _ (shortEscape?_eq_some_iff.1 hshort))⟩
  · exact List.forall_mem_singleton.2 hvisible
  · exact areVisible_append.2 ⟨areVisible_unitEscape _, areVisible_unitEscape _⟩

theorem areVisible_escapePoint (p : CodePoint) : AreVisible (escapePoint p) := by
  cases p with
  | char c => exact areVisible_escapeAscii c
  | half n => exact areVisible_unitEscape _

/-- **A literal in ASCII holds no control characters and none of any other script.** -/
theorem areVisible_looseLiteral (t : LooseText) : AreVisible (looseLiteral t).toList := by
  rw [toList_looseLiteral]
  refine areVisible_cons.2 ⟨by decide, areVisible_append.2 ⟨fun d hd => ?_, by decide⟩⟩
  obtain ⟨p, -, hp⟩ := List.mem_flatMap.1 hd
  exact areVisible_escapePoint p d hp

theorem areVisible_asciiLiteral (s : String) : AreVisible (asciiLiteral s).toList := by
  rw [← looseLiteral_ofString]
  exact areVisible_looseLiteral s

/-! ### Reading -/

theorem pair_units {high low : Nat} (h : 0x10000 ≤ c.toNat)
    (hhigh : high = 0xd800 + (c.toNat - 0x10000) / 0x400)
    (hlow : low = 0xdc00 + (c.toNat - 0x10000) % 0x400) :
    isHigh high = true ∧ isLow low = true ∧ ofPair high low = c := by
  have hsum : 0x10000 + (high - 0xd800) * 0x400 + (low - 0xdc00) = c.toNat := by omega
  have hvalid : c.toNat < 0xd800 ∨ 0xdfff < c.toNat ∧ c.toNat < 0x110000 := c.valid
  refine ⟨isHigh_iff.2 (by omega), isLow_iff.2 (by omega), ?_⟩
  unfold ofPair
  rw [hsum]
  exact Char.ofNat_toNat c

theorem readPoint?_units {high low : Nat} (hhigh : isHigh high = true) (hlow : isLow low = true)
    (rest : List Char) :
    readPoint? (unitEscape high ++ unitEscape low ++ rest) =
      some (.char (ofPair high low), rest) := by
  have hhighUnit := isHigh_iff.1 hhigh
  have hlowUnit := isLow_iff.1 hlow
  have hsecond := lowHalf?_unitEscape (n := low) (by omega) rest
  rw [hlow, if_pos rfl] at hsecond
  rw [List.append_assoc]
  change readPoint? ('\\' :: 'u' :: (Digits.hexFixed 4 high ++ (unitEscape low ++ rest))) = _
  rw [readPoint?, hex4?_hexFixed (by omega), Option.map_some, readUnit, hhigh, if_pos rfl, hsecond]

theorem readPoint?_pair (h : 0x10000 ≤ c.toNat) (rest : List Char) :
    readPoint? (unitEscape (0xd800 + (c.toNat - 0x10000) / 0x400) ++
      unitEscape (0xdc00 + (c.toNat - 0x10000) % 0x400) ++ rest) = some (.char c, rest) := by
  obtain ⟨high, hhigh⟩ : ∃ n, n = 0xd800 + (c.toNat - 0x10000) / 0x400 := ⟨_, rfl⟩
  obtain ⟨low, hlow⟩ : ∃ n, n = 0xdc00 + (c.toNat - 0x10000) % 0x400 := ⟨_, rfl⟩
  obtain ⟨hisHigh, hisLow, hpair⟩ := pair_units h hhigh hlow
  rw [← hhigh, ← hlow, readPoint?_units hisHigh hisLow, hpair]

theorem code_half_lt (n : Fin 2048) : (CodePoint.half n).code < 0x10000 := by
  have hn := n.isLt
  simp only [CodePoint.code]
  omega

/-- **Every code point is read back from its writing in ASCII.** -/
theorem isWriting_escapePoint : IsWriting id escapePoint := by
  refine ⟨fun p rest hlone => ?_, fun p rest hlow => ?_, fun p => ?_⟩
  · cases p with
    | half n =>
      exact readPoint?_unitEscape (code_half_lt n) hlone
    | char c =>
      refine escapeAscii_cases (P := fun w => readPoint? (w ++ rest) = some (.char c, rest)) c
        (fun e hshort => ?_) (fun hplain _ => ?_) (fun hunit => ?_) fun hpair => ?_
      · exact readPoint?_short hshort rest
      · exact readPoint?_plain hplain rest
      · exact readPoint?_unitEscape (p := .char c) hunit hlone
      · exact readPoint?_pair hpair rest
  · cases p with
    | half n =>
      rw [escapePoint, lowHalf?_unitEscape (code_half_lt n)]
      exact if_neg (by simpa using hlow)
    | char c =>
      refine escapeAscii_cases (P := fun w => JsonString.lowHalf? (w ++ rest) = none) c
        (fun e hshort => ?_) (fun hplain _ => ?_) (fun hunit => ?_) fun hpair => ?_
      · exact lowHalf?_short hshort rest
      · exact lowHalf?_plain hplain rest
      · rw [lowHalf?_unitEscape hunit, isLow_char]
        rfl
      · obtain ⟨hhigh, -, -⟩ := pair_units hpair rfl rfl
        generalize 0xd800 + (c.toNat - 0x10000) / 0x400 = high at *
        have hhighUnit := isHigh_iff.1 hhigh
        have hnotLow : isLow high = false := by
          rw [← Bool.not_eq_true, isLow_iff]
          omega
        rw [List.append_assoc, lowHalf?_unitEscape (by omega), hnotLow]
        rfl
  · cases p with
    | half n => exact ⟨_, _, rfl, by decide⟩
    | char c =>
      refine escapeAscii_cases (P := fun w => ∃ d ds, w = d :: ds ∧ d ≠ '"') c
        (fun e _ => ?_) (fun hplain _ => ?_) (fun _ => ?_) fun _ => ?_
      · exact ⟨_, _, rfl, by decide⟩
      · exact ⟨_, _, rfl, (ne_of_plain hplain).1⟩
      · exact ⟨_, _, rfl, by decide⟩
      · exact ⟨_, _, rfl, by decide⟩

/-- **A literal in ASCII is read back, whatever follows it, if no two halves of the text make a
pair.** -/
theorem read?_looseInside {t : LooseText} (h : IsUnpaired t.points) (rest : List Char) :
    read? (looseInside t ++ '"' :: rest) = some (t, rest) := by
  have hpairs : IsUnpaired (t.points.map id) := by rwa [List.map_id]
  have hread := isWriting_escapePoint.read? t.points rest hpairs
  rwa [List.map_id] at hread

end JsonString

end BoardWiring
