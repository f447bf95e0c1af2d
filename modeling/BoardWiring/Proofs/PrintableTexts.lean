import BoardWiring.Failure
import BoardWiring.Proofs.BindingNames

/-!
# Texts that stay on one line

A text of printable characters is shown as it is written, on one line.  The messages of errors are
such texts: what comes from a description is quoted in them, or is a number.

* `Text.IsLegible` are the texts of printable characters, and `Text.not_isBreak_of_isPrintable` says
  that no control character and no separator of lines is in them;
* `Quoted.isLegible_loose` says that every quoted text is legible;
* `ConfigError.IsLegible` says that what is not quoted in the message of an error is legible, and
  holds of the errors for all causes; by `ConfigError.IsLegible.report` the report is legible then.
-/

namespace BoardWiring

/-! ### Legible texts -/

namespace Text

/-- All characters of a text are printable. -/
def IsLegible (s : String) : Prop := ∀ c ∈ s.toList, isPrintable c = true

instance (s : String) : Decidable (IsLegible s) :=
  decidable_of_iff (s.toList.all isPrintable = true) List.all_eq_true

/-- A control character, or a separator of lines or paragraphs. -/
def isBreak (c : Char) : Bool :=
  decide (c.toNat < 0x20) || (decide (0x7f ≤ c.toNat) && decide (c.toNat ≤ 0x9f)) ||
    decide (c.toNat = 0x2028) || decide (c.toNat = 0x2029)

variable {s t : String} {c : Char}

/-- No printable character is in a range of code points that are not. -/
theorem not_hidden (lo hi : Nat) (h : isPrintable c = true) (hlow : 0x7f ≤ lo)
    (hmem : (lo, hi) ∈ hiddenLow) : ¬(lo ≤ c.toNat ∧ c.toNat ≤ hi) := by
  rintro ⟨hlo, hhi⟩
  have hhidden : inRanges hiddenLow c.toNat = true :=
    List.any_eq_true.2 ⟨_, hmem, by simp [hlo, hhi]⟩
  have hge : ¬c.toNat < 0x7f := by omega
  simp [isPrintable, hge, hhidden] at h

theorem not_isBreak_of_isPrintable (h : isPrintable c = true) : isBreak c = false := by
  have hlow : ¬c.toNat < 0x20 := by
    intro hlt
    have hascii : c.toNat < 0x7f := by omega
    simp [isPrintable, hascii] at h
    omega
  have hcontrol := not_hidden 0x7f 0xa0 h (by decide) (by decide)
  have hline := not_hidden 0x2028 0x202f h (by decide) (by decide)
  simp only [isBreak, Bool.or_eq_false_iff, Bool.and_eq_false_iff, decide_eq_false_iff_not]
  omega

theorem visible_of_isPrintable (h : isPrintable c = true) : 0x20 ≤ c.toNat := by
  have hbreak := not_isBreak_of_isPrintable h
  simp only [isBreak, Bool.or_eq_false_iff, decide_eq_false_iff_not] at hbreak
  omega

@[simp] theorem isLegible_append : IsLegible (s ++ t) ↔ IsLegible s ∧ IsLegible t := by
  rw [IsLegible, String.toList_append, List.forall_mem_append]
  rfl

theorem isLegible_ofList {cs : List Char} (h : ∀ c ∈ cs, isPrintable c = true) :
    IsLegible (String.ofList cs) := by
  rwa [IsLegible, String.toList_ofList]

theorem isLegible_intercalate {sep : String} {texts : List String} (hsep : IsLegible sep)
    (h : ∀ s ∈ texts, IsLegible s) : IsLegible (String.intercalate sep texts) := by
  rw [IsLegible, String.toList_intercalate]
  intro c hc
  rcases Name.mem_intercalate hc with hc | ⟨w, hw, hc⟩
  · exact hsep c hc
  · obtain ⟨s, hs, rfl⟩ := List.mem_map.1 hw
    exact h s hs c hc

end Text

/-! ### Numbers -/

namespace Digits

open Text

theorem isPrintable_digit : ∀ d < 16, isPrintable (digit d) = true := by decide

theorem isPrintable_of_mem_write {b : Nat} (hb : 1 < b) (hb' : b ≤ 16) (n : Nat) :
    ∀ c ∈ write b n, isPrintable c = true :=
  forall_mem_write hb (fun d hd => isPrintable_digit d (by omega)) n

theorem isPrintable_of_mem_hexFixed (width n : Nat) :
    ∀ c ∈ hexFixed width n, isPrintable c = true :=
  forall_mem_padLeft (by decide) (isPrintable_of_mem_write (by decide) (by decide) n) width

@[simp] theorem isLegible_decimal (n : Nat) : IsLegible (decimal n) :=
  isLegible_ofList (isPrintable_of_mem_write (by decide) (by decide) n)

@[simp] theorem isLegible_signed (i : Int) : IsLegible (signed i) :=
  forall_mem_signed (by decide) (fun d hd => isPrintable_digit d (by omega)) i

end Digits

/-! ### Quoted texts -/

namespace Quoted

open Text

theorem isPrintable_mark (cs : List Char) : isPrintable (mark cs) = true := by
  unfold mark
  split_ifs <;> decide

theorem isPrintable_of_mem_numeric (n : Nat) : ∀ c ∈ numeric n, isPrintable c = true := by
  have hescape : ∀ (letter : Char) (width : Nat), isPrintable letter = true →
      ∀ c ∈ '\\' :: letter :: Digits.hexFixed width n, isPrintable c = true := by
    intro letter width hletter
    exact List.forall_mem_cons.2 ⟨by decide,
      List.forall_mem_cons.2 ⟨hletter, Digits.isPrintable_of_mem_hexFixed width n⟩⟩
  unfold numeric
  split_ifs
  · exact hescape 'x' 2 (by decide)
  · exact hescape 'u' 4 (by decide)
  · exact hescape 'U' 8 (by decide)

theorem isPrintable_of_mem_escape {q : Char} (hq : isPrintable q = true) (c : Char) :
    ∀ d ∈ escape q c, isPrintable d = true := by
  have hpair : ∀ letter, isPrintable letter = true → ∀ d ∈ ['\\', letter], isPrintable d = true :=
    fun letter h => List.forall_mem_cons.2 ⟨by decide, List.forall_mem_singleton.2 h⟩
  unfold escape
  split_ifs with hmark htab hfeed hreturn hc
  · refine hpair c ?_
    rcases hmark with rfl | rfl
    · exact hq
    · decide
  · exact hpair 't' (by decide)
  · exact hpair 'n' (by decide)
  · exact hpair 'r' (by decide)
  · exact List.forall_mem_singleton.2 hc
  · exact isPrintable_of_mem_numeric c.toNat

theorem isPrintable_of_mem_escapePoint {q : Char} (hq : isPrintable q = true) (p : CodePoint) :
    ∀ d ∈ escapePoint q p, isPrintable d = true := by
  cases p with
  | char c => exact isPrintable_of_mem_escape hq c
  | half n => exact isPrintable_of_mem_numeric (CodePoint.half n).code

/-- **A quoted text is legible, whatever the text is.** -/
@[simp] theorem isLegible_loose (t : LooseText) : IsLegible (loose t) := by
  have hmark := isPrintable_mark t.characters
  refine isLegible_ofList (List.forall_mem_append.2 ⟨List.forall_mem_cons.2 ⟨hmark, ?_⟩,
    List.forall_mem_singleton.2 hmark⟩)
  intro c hc
  obtain ⟨p, -, hp⟩ := List.mem_flatMap.1 hc
  exact isPrintable_of_mem_escapePoint hmark p c hp

@[simp] theorem isLegible_text (s : String) : IsLegible (text s) :=
  loose_ofString s ▸ isLegible_loose (.ofString s)

end Quoted

/-! ### Errors -/

@[simp] theorem Family.isLegible_name (family : Family) : Text.IsLegible family.name := by
  cases family <;> decide

namespace ConfigError

open Text

/-- The parts of the message of an error that are neither fixed nor quoted. -/
def unquoted : ConfigError → List String
  | .unknownPin .. => []
  | .invalidPlacement _ reason => [reason]
  | .invalidExpanderPin _ reason => [reason]
  | .invalidFrequency value _ accepted => (value :: accepted).map Value.shown
  | .unsupportedCapability _ reason => [reason]
  | .validation message _ => [message]
  | .general _ message => [message]

/-- What is not quoted in the message of an error is legible. -/
def IsLegible (e : ConfigError) : Prop := ∀ s ∈ e.unquoted, Text.IsLegible s

theorem isLegible_forFamily (family : Option Family) : Text.IsLegible (forFamily family) := by
  cases family with
  | none => decide
  | some family => exact isLegible_append.2 ⟨by decide, family.isLegible_name⟩

/-- **The message of an error is legible if what is not quoted in it is.** -/
theorem IsLegible.message {e : ConfigError} (h : e.IsLegible) : Text.IsLegible e.message := by
  have hquoted : ∀ opening raw, Text.IsLegible opening →
      Text.IsLegible (opening ++ Quoted.loose raw) := fun opening raw hopening =>
    isLegible_append.2 ⟨hopening, Quoted.isLegible_loose raw⟩
  cases e with
  | unknownPin raw family =>
    exact isLegible_append.2 ⟨hquoted _ raw (by decide), isLegible_forFamily family⟩
  | invalidPlacement raw reason | unsupportedCapability raw reason =>
    exact isLegible_append.2 ⟨isLegible_append.2
      ⟨isLegible_append.2 ⟨by decide, Quoted.isLegible_text raw⟩, by decide⟩,
      List.forall_mem_singleton.1 h⟩
  | invalidExpanderPin raw reason =>
    refine isLegible_append.2 ⟨hquoted _ raw (by decide), ?_⟩
    split_ifs
    · decide
    · exact isLegible_append.2 ⟨isLegible_append.2 ⟨by decide, List.forall_mem_singleton.1 h⟩,
        by decide⟩
  | invalidFrequency value family accepted =>
    obtain ⟨hvalue, haccepted⟩ := List.forall_mem_cons.1 h
    refine isLegible_append.2 ⟨isLegible_append.2 ⟨isLegible_append.2
      ⟨isLegible_append.2 ⟨by decide, hvalue⟩, by decide⟩, isLegible_forFamily family⟩, ?_⟩
    split_ifs
    · decide
    · exact isLegible_append.2 ⟨by decide, isLegible_intercalate (by decide) haccepted⟩
  | validation message _ | general _ message => exact List.forall_mem_singleton.1 h

theorem IsLegible.report {e : ConfigError} (h : e.IsLegible) : Text.IsLegible e.report := by
  have hkind : Text.IsLegible e.kind := by
    unfold kind
    split <;> decide
  exact isLegible_append.2 ⟨isLegible_append.2 ⟨isLegible_append.2 ⟨by decide, hkind⟩,
    by decide⟩, h.message⟩

/-! ### Causes -/

@[simp] theorem isLegible_unknownPin (raw : LooseText) (family : Option Family) :
    (unknownPin raw family).IsLegible := nofun

@[simp] theorem isLegible_invalid {message : String} :
    (invalid message).IsLegible ↔ Text.IsLegible message := List.forall_mem_singleton

@[simp] theorem isLegible_validation {message : String} {raw : Value} :
    (validation message raw).IsLegible ↔ Text.IsLegible message := List.forall_mem_singleton

@[simp] theorem isLegible_absentOutsideGrid : absentOutsideGrid.IsLegible :=
  List.forall_mem_singleton.2 (by decide)

@[simp] theorem isLegible_notOnChip (raw : String) : (notOnChip raw).IsLegible :=
  List.forall_mem_singleton.2 (by decide)

@[simp] theorem isLegible_absentInitialised : absentInitialised.IsLegible :=
  List.forall_mem_singleton.2 (by decide)

@[simp] theorem isLegible_repeated (p : Pin) : (repeated p).IsLegible :=
  List.forall_mem_singleton.2 (by decide)

@[simp] theorem isLegible_raggedRow (row length expected : Nat) :
    (raggedRow row length expected).IsLegible := by
  refine List.forall_mem_singleton.2 ?_
  simp only [isLegible_append, Digits.isLegible_decimal, and_true]
  decide

@[simp] theorem isLegible_expanderForm (raw : LooseText) : (expanderForm raw).IsLegible :=
  List.forall_mem_singleton.2 (by decide)

@[simp] theorem isLegible_expanderAddress (raw : String) : (expanderAddress raw).IsLegible :=
  List.forall_mem_singleton.2 (by decide)

@[simp] theorem isLegible_expanderBank (raw : String) (letter : Char) :
    (expanderBank raw letter).IsLegible := by
  refine List.forall_mem_singleton.2 (isLegible_append.2 ⟨by decide, ?_⟩)
  exact Quoted.isLegible_text _

@[simp] theorem isLegible_expanderIndex (p : ExpanderPin) : (expanderIndex p).IsLegible := by
  refine List.forall_mem_singleton.2 ?_
  simp only [isLegible_append, Digits.isLegible_signed, and_true]
  decide

@[simp] theorem isLegible_expanderInterrupt (p : ExpanderPin) :
    (expanderInterrupt p).IsLegible :=
  List.forall_mem_singleton.2 (by decide)

@[simp] theorem isLegible_noInterruptLine (name : String) (number : Int) :
    (noInterruptLine name number).IsLegible := by
  refine List.forall_mem_singleton.2 (isLegible_append.2 ⟨by decide, ?_⟩)
  exact Digits.isLegible_signed number

@[simp] theorem isLegible_expanderWithoutBus (family : Family) :
    (expanderWithoutBus family).IsLegible :=
  List.forall_mem_singleton.2 (by decide)

@[simp] theorem isLegible_expanderPinWithoutBus (p : Pin) :
    (expanderPinWithoutBus p).IsLegible :=
  List.forall_mem_singleton.2 (by decide)

end ConfigError

end BoardWiring
