import BoardWiring.Text.Digits
import BoardWiring.Text.Quoted

/-!
# Encoding

A text is encoded as bytes, one to four for a character.  A half of a surrogate pair has no bytes,
so only whole texts can be encoded.

* `LooseText.encode` gives the bytes of a text, or the first run of halves in it;
* `LooseText.encode_eq_ok_iff` says that the strings are what can be encoded.
-/

namespace BoardWiring

/-- The first run of halves in a text, which keeps it from being encoded. -/
structure EncodingFault where
  /-- Number of code points before the run. -/
  place : Nat
  /-- First half of the run. -/
  first : Fin 2048
  /-- Number of halves directly behind the first. -/
  more : Nat
  deriving DecidableEq, Inhabited

/-- The message of a text that cannot be encoded. -/
def EncodingFault.message (f : EncodingFault) : String :=
  "'utf-8' codec can't encode character" ++
    (if f.more = 0 then
      " '" ++ String.ofList (Quoted.plain (.half f.first)) ++ "' in position " ++
        Digits.decimal f.place
    else "s in position " ++ Digits.decimal f.place ++ "-" ++ Digits.decimal (f.place + f.more)) ++
    ": surrogates not allowed"

namespace LooseText

/-- The first run of halves among code points, of which `place` stand before. -/
def firstRun? (place : Nat) : List CodePoint → Option EncodingFault
  | [] => none
  | .char _ :: ps => firstRun? (place + 1) ps
  | .half n :: ps => some ⟨place, n, (ps.takeWhile CodePoint.isHalf).length⟩

/-- The bytes of a text. -/
def encode (t : LooseText) : Except EncodingFault (List UInt8) :=
  match firstRun? 0 t.points with
  | none => .ok (String.ofList t.characters).toUTF8.toList
  | some f => .error f

theorem firstRun?_map_char (place : Nat) (cs : List Char) :
    firstRun? place (cs.map .char) = none := by
  induction cs generalizing place with
  | nil => rfl
  | cons c cs ih => exact ih (place + 1)

theorem eq_map_char_of_firstRun? {place : Nat} {ps : List CodePoint}
    (h : firstRun? place ps = none) : ∃ cs : List Char, ps = cs.map .char := by
  induction ps generalizing place with
  | nil => exact ⟨[], rfl⟩
  | cons p ps ih =>
    cases p with
    | char c =>
      have rest : firstRun? (place + 1) ps = none := h
      obtain ⟨cs, rfl⟩ := ih rest
      exact ⟨c :: cs, rfl⟩
    | half n => simp [firstRun?] at h

@[simp] theorem encode_ofString (s : String) : (ofString s).encode = .ok s.toUTF8.toList := by
  simp [encode, firstRun?_map_char]

/-- A text can be encoded when it is a string. -/
theorem encode_eq_ok_iff {t : LooseText} {bs : List UInt8} :
    t.encode = .ok bs ↔ ∃ s : String, t = s ∧ bs = s.toUTF8.toList := by
  constructor
  · intro h
    cases run : firstRun? 0 t.points with
    | some f => simp [encode, run] at h
    | none =>
      obtain ⟨cs, points⟩ := eq_map_char_of_firstRun? run
      obtain rfl : t = ofChars cs := LooseText.ext points
      refine ⟨String.ofList cs, by simp [ofString], ?_⟩
      have whole : ofChars cs = ofString (String.ofList cs) := by simp [ofString]
      rw [whole, encode_ofString, Except.ok.injEq] at h
      exact h.symm
  · rintro ⟨s, rfl, rfl⟩
    exact encode_ofString s

end LooseText

end BoardWiring
