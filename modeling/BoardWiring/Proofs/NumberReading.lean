import BoardWiring.Proofs.ShortestDigits
import BoardWiring.Value.Json

/-!
# Reading the numbers of JSON

An integer is read back from its digits, and a double from the shortest digits that stand for it,
in whichever of its three forms it is written.

* `Json.IsEnd` says that no number goes on;
* `Json.readNumber?_signed` says that integers are read back;
* `Json.readUnsigned?_layout` says that the form of the digits does not matter to their value, and
  `Json.readNumber?_double` that finite doubles are read back.
-/

namespace BoardWiring

namespace Json

/-- What follows a value: nothing, or the end of an item. -/
def IsEnd (rest : List Char) : Prop := ∀ c ∈ rest.head?, c = ',' ∨ c = ']' ∨ c = '\x7d'

/-- Only digits of ASCII. -/
def AreDigits (ds : List Char) : Prop := ∀ c ∈ ds, ∃ d < 10, c = Digits.digit d

variable {whole fraction rest tail ds : List Char} {negative : Bool}

theorem isDigit_digit {d : Nat} (h : d < 10) : (Digits.digit d).isDigit = true := by
  have key : ∀ d < 10, (Digits.digit d).isDigit = true := by decide
  exact key d h

/-! ### Runs of digits -/

namespace AreDigits

theorem isDigit (h : AreDigits ds) : ∀ c ∈ ds, c.isDigit = true := by
  intro c hc
  obtain ⟨d, hd, rfl⟩ := h c hc
  exact isDigit_digit hd

theorem append {es : List Char} (hds : AreDigits ds) (hes : AreDigits es) : AreDigits (ds ++ es) :=
  List.forall_mem_append.2 ⟨hds, hes⟩

theorem replicate (n : Nat) : AreDigits (List.replicate n '0') := by
  intro c hc
  exact ⟨0, by decide, List.eq_of_mem_replicate hc⟩

theorem write (n : Nat) : AreDigits (Digits.write 10 n) :=
  fun _ hc => Digits.exists_of_mem_write (by decide) hc

theorem digitsValue (h : AreDigits ds) : digitsValue ds = Digits.number 10 ds := by
  have hvalue : ∀ d < 10,
      (Digits.digit d).toNat - 48 = (Digits.hexValue? (Digits.digit d)).getD 0 := by decide
  rw [Json.digitsValue, Digits.number]
  congr 1
  refine List.map_congr_left fun c hc => ?_
  obtain ⟨d, hd, rfl⟩ := h c hc
  exact hvalue d hd

/-- A run of digits ends where no digit follows. -/
theorem takeWhile (h : AreDigits ds) (hrest : ∀ c ∈ rest.head?, c.isDigit = false) :
    (ds ++ rest).takeWhile Char.isDigit = ds := by
  rw [List.takeWhile_append_of_pos h.isDigit]
  cases rest with
  | nil => simp
  | cons c rest => simp [hrest c rfl]

theorem dropWhile (h : AreDigits ds) (hrest : ∀ c ∈ rest.head?, c.isDigit = false) :
    (ds ++ rest).dropWhile Char.isDigit = rest := by
  rw [List.dropWhile_append_of_pos h.isDigit]
  cases rest with
  | nil => rfl
  | cons c rest => simp [hrest c rfl]

end AreDigits

namespace IsEnd

theorem not_isDigit (h : IsEnd rest) : ∀ c ∈ rest.head?, c.isDigit = false := by
  intro c hc
  rcases h c hc with rfl | rfl | rfl <;> rfl

theorem readFraction? (h : IsEnd rest) : readFraction? rest = none := by
  unfold Json.readFraction?
  split
  · exact absurd (h '.' rfl) (by decide)
  · rfl

theorem readExponent? (h : IsEnd rest) : readExponent? rest = none := by
  unfold Json.readExponent?
  split
  · rename_i e rest
    rcases h e rfl with rfl | rfl | rfl <;> rfl
  · rfl

theorem getD_exponent (h : IsEnd rest) : (Json.readExponent? rest).getD (0, rest) = (0, rest) := by
  rw [h.readExponent?, Option.getD_none]

end IsEnd

/-! ### The parts of a number -/

/-- The digits before the point: no zero stands in front of others. -/
structure IsWhole (whole : List Char) : Prop where
  /-- There are only digits. -/
  digits : AreDigits whole
  /-- There is a digit. -/
  ne_nil : whole ≠ []
  /-- A zero at the front is all there is. -/
  zero : whole.head? = some '0' → whole.length = 1

theorem IsWhole.of_head {d : Nat} (hd : 0 < d) (hd' : d < 10) (hds : AreDigits ds) :
    IsWhole (Digits.digit d :: ds) := by
  refine ⟨List.forall_mem_cons.2 ⟨⟨d, hd', rfl⟩, hds⟩, List.cons_ne_nil _ _, fun hzero => ?_⟩
  have hdigit : Digits.digit d = Digits.digit 0 := Option.some.inj hzero
  have hno := Digits.digit_injective (by omega) (by decide) hdigit
  omega

theorem isWhole_zero : IsWhole ['0'] :=
  ⟨.replicate 1, List.cons_ne_nil _ _, fun _ => rfl⟩

theorem isWhole_write (n : Nat) : IsWhole (Digits.write 10 n) := by
  rcases Nat.eq_zero_or_pos n with rfl | hn
  · rw [Digits.write_of_lt (by decide)]
    exact isWhole_zero
  · obtain ⟨d, ds, hwrite, hd, hd'⟩ := Digits.exists_write_of_pos (b := 10) (by decide) hn
    have hall := AreDigits.write n
    rw [hwrite] at hall ⊢
    exact .of_head hd hd' (List.forall_mem_cons.1 hall).2

theorem readFraction?_point (hfraction : AreDigits fraction) (hne : fraction ≠ [])
    (hrest : ∀ c ∈ rest.head?, c.isDigit = false) :
    readFraction? ('.' :: (fraction ++ rest)) = some (fraction, rest) := by
  simp only [readFraction?, hfraction.takeWhile hrest, hfraction.dropWhile hrest]
  rw [if_neg (by simpa using hne)]

theorem readExponent?_exponentChars (e : Int) (hrest : ∀ c ∈ rest.head?, c.isDigit = false) :
    readExponent? (Shortest.exponentChars e ++ rest) = some (e, rest) := by
  obtain ⟨ds, hds⟩ : ∃ ds, ds = Digits.padLeft '0' 2 (Digits.write 10 e.natAbs) := ⟨_, rfl⟩
  have hdigits : AreDigits ds := by
    rw [hds]
    exact (AreDigits.replicate _).append (.write _)
  have hne : ds ≠ [] := by
    rw [hds]
    exact List.append_ne_nil_of_right_ne_nil _ (Digits.write_ne_nil 10 _)
  have hvalue : digitsValue ds = e.natAbs := by
    rw [hdigits.digitsValue, hds, Digits.number_padLeft,
      Digits.number_write (by decide) (by decide)]
  have hempty : ds.isEmpty = false := by simpa using hne
  rw [Shortest.exponentChars, ← hds]
  by_cases hsign : e < 0
  · have hminus : -|e| = e := by rw [abs_of_neg hsign, neg_neg]
    simp [hsign, readExponent?, hdigits.takeWhile hrest, hdigits.dropWhile hrest, hne, hvalue,
      hminus]
  · have hplus : |e| = e := abs_of_nonneg (not_lt.1 hsign)
    simp [hsign, readExponent?, hdigits.takeWhile hrest, hdigits.dropWhile hrest, hne, hvalue,
      hplus]

/-- A number is its digits before the point, with a fraction and an exponent if they follow. -/
theorem readUnsigned?_append (hwhole : IsWhole whole) (htail : ∀ c ∈ tail.head?, c.isDigit = false)
    {afterFraction after : List Char} {exponent : Int}
    (hfraction : (readFraction? tail).getD ([], tail) = (fraction, afterFraction))
    (hexponent : (readExponent? afterFraction).getD (0, afterFraction) = (exponent, after)) :
    readUnsigned? negative (whole ++ tail) =
      if after.length = tail.length then
        some (.int (if negative then -(Digits.number 10 whole : Int) else Digits.number 10 whole),
          tail)
      else some (.float (.ofDecimal negative (digitsValue (whole ++ fraction))
        (exponent - fraction.length)), after) := by
  have hstart : ¬(whole.isEmpty = true ∨ whole.head? = some '0' ∧ whole.length ≠ 1) := by
    rintro (hempty | ⟨hzero, hlong⟩)
    · exact hwhole.ne_nil (List.isEmpty_iff.1 hempty)
    · exact hlong (hwhole.zero hzero)
  have hmap : ∀ {α β γ : Type} (o : Option (α × β)) (f : α × β → γ) (d : α × β),
      (o.map f).getD (f d) = f (o.getD d) := by
    intro α β γ o f d
    cases o <;> rfl
  have hfst : ((readFraction? tail).map Prod.fst).getD [] = fraction :=
    (hmap _ Prod.fst ([], tail)).trans (by rw [hfraction])
  have hsnd : ((readFraction? tail).map Prod.snd).getD tail = afterFraction :=
    (hmap _ Prod.snd ([], tail)).trans (by rw [hfraction])
  have hfst' : ((readExponent? afterFraction).map Prod.fst).getD 0 = exponent :=
    (hmap _ Prod.fst (0, afterFraction)).trans (by rw [hexponent])
  have hsnd' : ((readExponent? afterFraction).map Prod.snd).getD afterFraction = after :=
    (hmap _ Prod.snd (0, afterFraction)).trans (by rw [hexponent])
  unfold readUnsigned?
  simp only [hwhole.digits.takeWhile htail, hwhole.digits.dropWhile htail, hstart, if_false, hfst,
    hsnd, hfst', hsnd', hwhole.digits.digitsValue]

/-- A text that begins with a digit. -/
def HasDigit (cs : List Char) : Prop := ∃ d ds, d < 10 ∧ cs = Digits.digit d :: ds

theorem HasDigit.append {cs : List Char} (h : HasDigit cs) (ds : List Char) :
    HasDigit (cs ++ ds) := by
  obtain ⟨d, es, hd, rfl⟩ := h
  exact ⟨d, es ++ ds, hd, List.cons_append⟩

theorem IsWhole.hasDigit (h : IsWhole whole) : HasDigit whole := by
  obtain ⟨c, cs, rfl⟩ := List.exists_cons_of_ne_nil h.ne_nil
  obtain ⟨d, hd, rfl⟩ := h.digits c List.mem_cons_self
  exact ⟨d, cs, hd, rfl⟩

theorem readNumber?_sign {cs : List Char} (h : HasDigit cs) :
    readNumber? (Shortest.sign negative ++ cs) = readUnsigned? negative cs := by
  cases negative with
  | true => rfl
  | false =>
    obtain ⟨d, ds, hd, rfl⟩ := h
    have hminus : ∀ d < 10, Digits.digit d ≠ '-' := by decide
    simp [Shortest.sign, readNumber?, hminus d hd]

/-! ### Integers -/

theorem signedIn_eq (i : Int) :
    Digits.signedIn 10 i = Shortest.sign (decide (i < 0)) ++ Digits.write 10 i.natAbs := by
  unfold Digits.signedIn
  split_ifs with hsign <;> simp [Shortest.sign, hsign]

/-- **An integer is read back.** -/
theorem readNumber?_signed (i : Int) (hrest : IsEnd rest) :
    readNumber? (Digits.signedIn 10 i ++ rest) = some (.int i, rest) := by
  have hvalue : (if decide (i < 0) then -(i.natAbs : Int) else i.natAbs) = i := by
    split_ifs with hsign <;> simp only [decide_eq_true_eq] at hsign <;> omega
  have hfraction : (readFraction? rest).getD ([], rest) = ([], rest) := by
    rw [hrest.readFraction?, Option.getD_none]
  rw [signedIn_eq, List.append_assoc, readNumber?_sign ((isWhole_write _).hasDigit.append _),
    readUnsigned?_append (isWhole_write _) hrest.not_isDigit hfraction hrest.getD_exponent,
    if_pos rfl, Digits.number_write (by decide) (by decide), hvalue]

/-! ### Doubles -/

theorem readUnsigned?_point (negative : Bool) (hwhole : IsWhole whole)
    (hfraction : AreDigits fraction) (hne : fraction ≠ []) (hrest : IsEnd rest) :
    readUnsigned? negative (whole ++ '.' :: (fraction ++ rest)) =
      some (.float (.ofDecimal negative (Digits.number 10 (whole ++ fraction))
        (-fraction.length)), rest) := by
  have hlength : ¬rest.length = ('.' :: (fraction ++ rest)).length := by
    rw [List.length_cons, List.length_append]
    omega
  have hread : (readFraction? ('.' :: (fraction ++ rest))).getD ([], '.' :: (fraction ++ rest)) =
      (fraction, rest) := by
    rw [readFraction?_point hfraction hne hrest.not_isDigit, Option.getD_some]
  rw [readUnsigned?_append hwhole (by simp) hread hrest.getD_exponent, if_neg hlength,
    (hwhole.digits.append hfraction).digitsValue, Int.zero_sub]

theorem readUnsigned?_exponent (negative : Bool) (hwhole : IsWhole whole)
    (hfraction : AreDigits fraction) (e : Int) (hrest : IsEnd rest) :
    readUnsigned? negative (whole ++ ((if fraction = [] then [] else '.' :: fraction) ++
        (Shortest.exponentChars e ++ rest))) =
      some (.float (.ofDecimal negative (Digits.number 10 (whole ++ fraction))
        (e - fraction.length)), rest) := by
  have hexponent : (readExponent? (Shortest.exponentChars e ++ rest)).getD
      (0, Shortest.exponentChars e ++ rest) = (e, rest) := by
    rw [readExponent?_exponentChars e hrest.not_isDigit, Option.getD_some]
  have htail : ∀ c ∈ (Shortest.exponentChars e ++ rest).head?, c.isDigit = false := by
    simp [Shortest.exponentChars]
  have hlength : rest.length < (Shortest.exponentChars e ++ rest).length := by
    rw [List.length_append, Shortest.exponentChars, List.length_cons]
    omega
  split_ifs with hne
  · subst hne
    have hread : (readFraction? (Shortest.exponentChars e ++ rest)).getD
        ([], Shortest.exponentChars e ++ rest) = ([], Shortest.exponentChars e ++ rest) := rfl
    rw [List.nil_append, readUnsigned?_append hwhole htail hread hexponent,
      if_neg hlength.ne, (hwhole.digits.append hfraction).digitsValue]
  · have hread : (readFraction? ('.' :: (fraction ++ (Shortest.exponentChars e ++ rest)))).getD
        ([], '.' :: (fraction ++ (Shortest.exponentChars e ++ rest))) =
          (fraction, Shortest.exponentChars e ++ rest) := by
      rw [readFraction?_point hfraction hne htail, Option.getD_some]
    rw [List.cons_append, readUnsigned?_append hwhole (by simp) hread hexponent,
      if_neg (by rw [List.length_cons, List.length_append]; omega),
      (hwhole.digits.append hfraction).digitsValue]

/-- Digits are laid out with an exponent, behind zeros, or around the point. -/
theorem layout_cases {P : List Char → Prop} {s : Scientific} {d : Nat}
    (hdigits : s.digits = Digits.digit d :: ds)
    (exponential : P (Digits.digit d :: ((if ds = [] then [] else '.' :: ds) ++
      Shortest.exponentChars s.exponent)))
    (small : s.exponent < 0 →
      P ('0' :: '.' :: (List.replicate (-s.exponent - 1).toNat '0' ++ s.digits)))
    (positional : ∀ n, s.exponent + 1 = (n + 1 : Nat) →
      P (s.digits.take (n + 1) ++ List.replicate (n + 1 - s.digits.length) '0' ++
        '.' :: Shortest.orZero (s.digits.drop (n + 1)))) : P (Shortest.layout s) := by
  unfold Shortest.layout
  by_cases hfar : s.exponent < -4 ∨ 16 ≤ s.exponent
  · rw [if_pos hfar, hdigits, List.length_cons]
    cases ds with
    | nil => exact exponential
    | cons c ds => exact exponential
  rw [if_neg hfar]
  by_cases hsmall : s.exponent < 0
  · rw [if_pos hsmall]
    exact small hsmall
  · rw [if_neg hsmall]
    exact positional s.exponent.toNat (by omega)

theorem hasDigit_layout {s : Scientific} {x : Binary64} (h : s.Denotes x) :
    HasDigit (Shortest.layout s) := by
  obtain ⟨d, ds, hdigits, -, hd⟩ := h.exists_head
  refine layout_cases hdigits ⟨d, _, hd, rfl⟩ (fun _ => ⟨0, _, by decide, rfl⟩) fun n _ => ?_
  rw [hdigits]
  exact ⟨d, _, hd, rfl⟩

/-- **The form in which digits are laid out does not matter to their value.** -/
theorem readUnsigned?_layout {s : Scientific} {x : Binary64} (h : s.Denotes x)
    (hrest : IsEnd rest) :
    readUnsigned? x.isNegative (Shortest.layout s ++ rest) = some (.float x, rest) := by
  obtain ⟨d, ds, hdigits, hpos, hd⟩ := h.exists_head
  have hall : AreDigits s.digits := h.exists_digit
  have hds : AreDigits ds := (List.forall_mem_cons.1 (hdigits ▸ hall)).2
  have hvalue := h.reads_back
  refine layout_cases (P := fun w => readUnsigned? x.isNegative (w ++ rest) = some (.float x, rest))
    hdigits ?_ (fun hsmall => ?_) fun n hn => ?_
  · -- The point stands behind the first digit.
    have hwhole : IsWhole [Digits.digit d] := .of_head hpos hd (.replicate 0)
    have hread := readUnsigned?_exponent x.isNegative hwhole hds s.exponent hrest
    have hplace : s.exponent - ds.length = s.exponent + 1 - s.digits.length := by
      rw [hdigits, List.length_cons]
      omega
    rw [List.singleton_append, List.singleton_append, ← hdigits, hplace, hvalue] at hread
    rw [List.cons_append, List.append_assoc, hread]
  · -- All digits stand behind the point, and the zeros before them do not count.
    obtain ⟨zeros, hzeros⟩ : ∃ n : Nat, -s.exponent - 1 = n :=
      ⟨_, (Int.toNat_of_nonneg (by omega)).symm⟩
    have hread := readUnsigned?_point x.isNegative isWhole_zero
      ((AreDigits.replicate zeros).append hall) (by simp [hdigits]) hrest
    have hplace : (-(List.replicate zeros '0' ++ s.digits).length : Int) =
        s.exponent + 1 - s.digits.length := by
      rw [List.length_append, List.length_replicate]
      omega
    rw [hplace, show ['0'] = List.replicate 1 '0' from rfl, Digits.number_zeros,
      Digits.number_zeros, hvalue] at hread
    rw [hzeros, Int.toNat_natCast]
    exact hread
  · rcases Nat.lt_or_ge (n + 1) s.digits.length with hmany | hfew
    · have hwhole : IsWhole (s.digits.take (n + 1)) := by
        rw [hdigits, List.take_succ_cons]
        exact .of_head hpos hd fun c hc => hds c (List.mem_of_mem_take hc)
      have hfraction : s.digits.drop (n + 1) ≠ [] := by
        rw [Ne, List.drop_eq_nil_iff]
        omega
      have hread := readUnsigned?_point x.isNegative hwhole
        (fun c hc => hall c (List.mem_of_mem_drop hc)) hfraction hrest
      have hplace : (-(s.digits.drop (n + 1)).length : Int) =
          s.exponent + 1 - s.digits.length := by
        rw [List.length_drop]
        omega
      rw [List.take_append_drop, hplace, hvalue] at hread
      have hempty : (s.digits.drop (n + 1)).isEmpty = false := by simpa using hfraction
      rw [Nat.sub_eq_zero_of_le hmany.le, List.replicate_zero, List.append_nil, Shortest.orZero,
        hempty, List.append_assoc]
      exact hread
    · -- The zero behind the point and those before it are a power of ten.
      obtain ⟨k, hk⟩ : ∃ k, k = n + 1 - s.digits.length := ⟨_, rfl⟩
      have hwhole : IsWhole (s.digits ++ List.replicate k '0') := by
        rw [hdigits]
        exact .of_head hpos hd (hds.append (.replicate k))
      have hread := readUnsigned?_point x.isNegative hwhole isWhole_zero.digits
        (List.cons_ne_nil _ _) hrest
      have hplace : (-(['0'] : List Char).length : Int) =
          s.exponent + 1 - s.digits.length - ((k + 1 : Nat) : Int) := by
        rw [List.length_singleton]
        omega
      have hnumber : Digits.number 10 (s.digits ++ List.replicate k '0' ++ ['0']) =
          Digits.number 10 s.digits * Nat.pow 10 (k + 1) := by
        rw [List.append_assoc, ← List.replicate_succ', Digits.number_append_zeros]
      rw [hnumber, hplace, Binary64.ofDecimal_scale, hvalue] at hread
      rw [List.take_of_length_le hfew, List.drop_of_length_le hfew, ← hk, List.append_assoc]
      exact hread

theorem exists_chars (negative : Bool) {m : Nat} {e : Int} (hfinite : Binary64.IsFinite m e) :
    ∃ cs, Shortest.chars (.finite negative m e) = Shortest.sign negative ++ cs ∧ HasDigit cs := by
  refine ⟨_, rfl, ?_⟩
  split_ifs with hzero
  · exact ⟨0, _, by decide, rfl⟩
  · exact hasDigit_layout (Shortest.digits_denotes negative hfinite (Nat.pos_of_ne_zero hzero))

/-- **A finite double is read back.** -/
theorem readNumber?_double (negative : Bool) {m : Nat} {e : Int} (hfinite : Binary64.IsFinite m e)
    (hrest : IsEnd rest) :
    readNumber? (Shortest.chars (.finite negative m e) ++ rest) =
      some (.float (.finite negative m e), rest) := by
  rw [Shortest.chars, List.append_assoc]
  split_ifs with hzero
  · subst hzero
    have hmin : e = Binary64.minExponent := hfinite.normal.resolve_left (by norm_num)
    have hread := readUnsigned?_point negative isWhole_zero (.replicate 1)
      (List.cons_ne_nil _ _) hrest
    have hvalue : Digits.number 10 (['0'] ++ List.replicate 1 '0') = 0 := by decide
    have hstart : HasDigit ("0.0".toList ++ rest) := ⟨0, _, by decide, rfl⟩
    rw [hvalue, Binary64.ofDecimal_zero] at hread
    rw [hmin, readNumber?_sign hstart]
    exact hread
  · have hdenotes := Shortest.digits_denotes negative hfinite
      (Nat.pos_of_ne_zero hzero)
    generalize Shortest.digits (.finite negative m e) m e = s at hdenotes ⊢
    have hread := readUnsigned?_layout hdenotes hrest
    rw [readNumber?_sign ((hasDigit_layout hdenotes).append _)]
    exact hread

end Json

end BoardWiring
