/-!
# Texts of code points

A text that comes from outside is a sequence of code points, and one half of a surrogate pair is a
code point without being a character.  A text that holds no such half is whole: it is a string.

* `CodePoint` is a character or a half, `LooseText` is a sequence of them;
* `LooseText.whole?` is the string that a text is, and `LooseText.whole?_eq_some_iff` says when it
  is one;
* `TornText` is a text that is none.
-/

namespace BoardWiring

/-- A code point: a character, or one of the 2048 halves of surrogate pairs. -/
inductive CodePoint where
  | char (c : Char)
  | half (n : Fin 2048)
  deriving DecidableEq, Inhabited

/-- A sequence of code points. -/
@[ext]
structure LooseText where
  /-- Code points in order. -/
  points : List CodePoint
  deriving DecidableEq, Inhabited

namespace CodePoint

/-- The number of a code point. -/
def code : CodePoint → Nat
  | .char c => c.toNat
  | .half n => 0xd800 + n.val

/-- The code point with a number. -/
def ofCode (n : Nat) : CodePoint :=
  if h : 0xd800 ≤ n ∧ n < 0xe000 then .half ⟨n - 0xd800, by omega⟩ else .char (Char.ofNat n)

/-- The character that a code point is. -/
def char? : CodePoint → Option Char
  | .char c => some c
  | .half _ => none

/-- A code point that is no character. -/
def isHalf : CodePoint → Bool
  | .char _ => false
  | .half _ => true

@[simp] theorem char?_char (c : Char) : (char c).char? = some c := rfl

@[simp] theorem char?_half (n : Fin 2048) : (half n).char? = none := rfl

end CodePoint

namespace LooseText

/-- The text of a list of characters. -/
def ofChars (cs : List Char) : LooseText := ⟨cs.map .char⟩

/-- The text that a string is. -/
def ofString (s : String) : LooseText := ofChars s.toList

instance : Coe String LooseText := ⟨ofString⟩

/-- Two texts, one after the other. -/
def append (t u : LooseText) : LooseText := ⟨t.points ++ u.points⟩

instance : Append LooseText := ⟨append⟩

/-- The characters of a text without halves. -/
def chars? (t : LooseText) : Option (List Char) := t.points.mapM CodePoint.char?

/-- The string that a text is, if it holds no half. -/
def whole? (t : LooseText) : Option String := t.chars?.map String.ofList

/-- The characters before the first half of a list of code points. -/
def headChars : List CodePoint → List Char
  | .char c :: ps => c :: headChars ps
  | _ => []

/-- What stands before the first half of a text. -/
def head (t : LooseText) : String := String.ofList (headChars t.points)

/-- The characters among the code points of a text. -/
def characters (t : LooseText) : List Char := t.points.filterMap CodePoint.char?

/-! ### Strings -/

@[simp] theorem points_ofString (s : String) : (ofString s).points = s.toList.map .char := rfl

@[simp] theorem points_append (t u : LooseText) : (t ++ u).points = t.points ++ u.points := rfl

theorem ofString_append (s u : String) : ofString (s ++ u) = ofString s ++ ofString u := by
  apply LooseText.ext
  simp

theorem chars?_eq_some_iff {t : LooseText} {cs : List Char} :
    t.chars? = some cs ↔ t = ofChars cs := by
  obtain ⟨ps⟩ := t
  simp only [chars?, ofChars, LooseText.mk.injEq]
  induction ps generalizing cs with
  | nil => cases cs <;> simp
  | cons p ps ih =>
    cases p with
    | half n => cases cs <;> simp [List.mapM_cons]
    | char c =>
      have step : List.mapM CodePoint.char? (.char c :: ps) =
          (List.mapM CodePoint.char? ps).map (c :: ·) := by
        cases h : List.mapM CodePoint.char? ps <;> simp [List.mapM_cons, h]
      rw [step, Option.map_eq_some_iff]
      cases cs with
      | nil => simp
      | cons d ds =>
        simp only [ih, List.map_cons, List.cons.injEq, CodePoint.char.injEq]
        grind

/-- A text is a string when it is made of the string's characters. -/
theorem whole?_eq_some_iff {t : LooseText} {s : String} : t.whole? = some s ↔ t = ofString s := by
  simp only [whole?, Option.map_eq_some_iff, chars?_eq_some_iff]
  constructor
  · rintro ⟨cs, rfl, rfl⟩
    simp [ofString]
  · rintro rfl
    exact ⟨s.toList, rfl, String.ofList_toList⟩

@[simp] theorem whole?_ofString (s : String) : (ofString s).whole? = some s :=
  whole?_eq_some_iff.2 rfl

/-- A text is a string if no half of a pair is in it. -/
theorem exists_string_iff {t : LooseText} :
    (∃ s : String, t = s) ↔ ∀ p ∈ t.points, p.isHalf = false := by
  constructor
  · rintro ⟨s, rfl⟩ p hp
    obtain ⟨c, -, rfl⟩ := List.mem_map.1 hp
    rfl
  · obtain ⟨ps⟩ := t
    intro h
    have chars : ∃ cs : List Char, ps = cs.map .char := by
      induction ps with
      | nil => exact ⟨[], rfl⟩
      | cons p ps ih =>
        obtain ⟨hp, hps⟩ := List.forall_mem_cons.1 h
        obtain ⟨cs, rfl⟩ := ih hps
        cases p with
        | char c => exact ⟨c :: cs, rfl⟩
        | half n => cases hp
    obtain ⟨cs, rfl⟩ := chars
    exact ⟨String.ofList cs, by simp [ofString, ofChars]⟩

/-- Two texts make a string if both are strings. -/
theorem exists_string_append {t u : LooseText} :
    (∃ s : String, t ++ u = s) ↔ (∃ s : String, t = s) ∧ ∃ s : String, u = s := by
  simp only [exists_string_iff, points_append, List.forall_mem_append]

@[simp] theorem characters_ofString (s : String) : (ofString s).characters = s.toList := by
  simp [characters, List.filterMap_map, Function.comp_def]

theorem headChars_map (cs : List Char) : headChars (cs.map .char) = cs := by
  induction cs with
  | nil => rfl
  | cons c cs ih => simp [headChars, ih]

@[simp] theorem head_ofString (s : String) : (ofString s).head = s := by
  simp [head, headChars_map]

end LooseText

/-- A text that is no string: it holds a half of a pair. -/
structure TornText where
  /-- Text. -/
  text : LooseText
  /-- It is not whole. -/
  torn : text.whole? = none
  deriving DecidableEq

end BoardWiring
