import BoardWiring.Log.Clock
import BoardWiring.Proofs.NearestDouble

/-!
# Times that have a stamp

Every time of the years 1 to 9999 has a time stamp, to the last double before the year 10000: the
doubles of that size stand so far apart that none is rounded up into the next second.

* `civil_year` says which days lie in these years;
* `Log.Clock.split_bounds` says that rounding to microseconds does not leave them;
* `Log.Clock.IsTime` are the numbers that are times of these years, and `Log.Clock.exists_stamp`
  says that each has a stamp.
-/

namespace BoardWiring

theorem Date.dayNumber_first : dayNumber ⟨1, 1, 1⟩ = -719162 := by decide

theorem Date.dayNumber_beyond : dayNumber ⟨10000, 1, 1⟩ = 2932897 := by decide

/-- **The days from the first of the year 1 to the last of the year 9999 lie in these years.**  The
year is counted from March, so that the first two months belong to the one before. -/
theorem civil_year {n : Int} (h : Date.dayNumber ⟨1, 1, 1⟩ ≤ n)
    (h' : n < Date.dayNumber ⟨10000, 1, 1⟩) : 1 ≤ (civil n).1 ∧ (civil n).1 ≤ 9999 := by
  rw [Date.dayNumber_first] at h
  rw [Date.dayNumber_beyond] at h'
  have hcycle : (n + 719468).fdiv 146097 = (n + 719468) / 146097 :=
    Int.fdiv_eq_ediv_of_nonneg _ (by decide)
  unfold civil
  simp only [hcycle]
  generalize hz : n + 719468 = z
  generalize hera : z / 146097 = era
  have heras : 0 ≤ era ∧ era ≤ 24 := by omega
  generalize hdoe : z - era * 146097 = doe
  generalize hyoe : (doe - doe / 1460 + doe / 36524 - doe / 146096) / 365 = yoe
  have hyears : 0 ≤ yoe ∧ yoe ≤ 399 := by omega
  -- The first cycle is entered in January, and the last one left in December.
  have hentered : era = 0 → 306 ≤ doe := by omega
  have hleft : era = 24 → doe ≤ 146036 := by omega
  split_ifs
  all_goals omega

namespace Log

namespace Clock

/-- The first second of the year 1. -/
def first : Int := Date.dayNumber ⟨1, 1, 1⟩ * 86400

/-- The first second of the year 10000. -/
def beyond : Int := Date.dayNumber ⟨10000, 1, 1⟩ * 86400

theorem first_eq : first = -62135596800 := by rw [first, Date.dayNumber_first]; rfl

theorem beyond_eq : beyond = 253402300800 := by rw [beyond, Date.dayNumber_beyond]; rfl

variable {num : Int} {den : Nat}

theorem exists_moment {seconds : Int} (us : Int) (h : first ≤ seconds) (h' : seconds < beyond) :
    ∃ m, moment seconds us = .ok m := by
  rw [first_eq] at h
  rw [beyond_eq] at h'
  have hyear := civil_year (n := seconds / 86400) (by rw [Date.dayNumber_first]; omega)
    (by rw [Date.dayNumber_beyond]; omega)
  have hnear : ¬(seconds < -(Int.pow 2 63) ∨ Int.pow 2 63 ≤ seconds) := by
    rw [show Int.pow 2 63 = 9223372036854775808 by decide]
    omega
  have hcounted : ¬((civil (seconds / 86400)).1 - 1900 < -(Int.pow 2 31) ∨
      Int.pow 2 31 ≤ (civil (seconds / 86400)).1 - 1900) := by
    rw [show Int.pow 2 31 = 2147483648 by decide]
    omega
  have hfour : ¬((civil (seconds / 86400)).1 < 1 ∨ 9999 < (civil (seconds / 86400)).1) := by omega
  have hdays : seconds.fdiv 86400 = seconds / 86400 := Int.fdiv_eq_ediv_of_nonneg _ (by decide)
  unfold moment
  simp only [hdays, hnear, hcounted, hfour, if_false]
  exact ⟨_, rfl⟩

/-! ### Microseconds -/

theorem micros_nonneg (den : Nat) (h : 0 ≤ num) : 0 ≤ micros num den := by
  rw [micros]
  cases hround : Binary64.ofRatio (decide (num < 0)) (num.natAbs * 1000000) den with
  | finite negative m e =>
    have hsign := Binary64.ofRatio_sign hround
    rw [decide_eq_false (not_lt.2 h)] at hsign
    subst hsign
    exact Int.natCast_nonneg _
  | infinite negative => exact Int.le_refl 0
  | nan => exact Int.le_refl 0

/-- The distance of the doubles just below the year 10000 is kept in their fractions: none of them
is rounded up to a whole second. -/
theorem micros_lt (hden : 0 < den) (hnum : 0 ≤ num) (h : (num / den : ℚ) ≤ 1 - 1 / 2 ^ 15) :
    micros num den < 1000000 := by
  obtain ⟨n, rfl⟩ := Int.eq_ofNat_of_zero_le hnum
  rw [micros, Int.natAbs_natCast, decide_eq_false (not_lt.2 hnum)]
  have hscaled : ((n * 1000000 : Nat) / den : ℚ) = (n / den : ℚ) * 1000000 := by
    push_cast
    ring
  push_cast at h
  cases hround : Binary64.ofRatio false (n * 1000000) den with
  | finite negative m e =>
    have hnegative := Binary64.ofRatio_sign hround
    subst hnegative
    -- The product is 30 microseconds short of a second, and it is rounded twice: to a double, which
    -- is off by 2 ^ -34 at the most, and to a whole number, which is off by a half.
    have herror := Binary64.ofRatio_error (f := -33) hden hround (by decide)
      (by rw [hscaled, div_lt_iff₀ (Binary64.two_zpow_pos _)]; norm_num; linarith)
    have hnear := Rounding.abs_nearestEven_sub_le (Binary64.magnitude m e).1
      (Binary64.magnitude_pos m e)
    rw [hscaled] at herror
    rw [Binary64.magnitude_div] at hnear
    have hupper := (abs_le.1 herror).2
    have hsum := (abs_le.1 hnear).2
    have hlt : (Rounding.nearestEven (Binary64.magnitude m e).1 (Binary64.magnitude m e).2 : ℚ) <
        1000000 := by
      norm_num at hupper
      linarith
    change ((Rounding.nearestEven _ _ : Nat) : Int) < 1000000
    exact_mod_cast hlt
  | infinite negative => exact (by decide : (0 : Int) < 1000000)
  | nan => exact (by decide : (0 : Int) < 1000000)

/-! ### Whole seconds -/

/-- Whole seconds are those towards zero, so that the fraction has the sign of the number. -/
theorem tdiv_bounds (num : Int) (hden : 0 < den) :
    num = num.tdiv den * den + num.tmod den ∧ -(den : Int) < num.tmod den ∧ num.tmod den < den ∧
      (num.tmod den < 0 → num.tdiv den ≤ 0) := by
  have hpos : (0 : Int) < den := by exact_mod_cast hden
  have hsum := Int.mul_tdiv_add_tmod num den
  refine ⟨by rw [mul_comm, hsum], Int.lt_tmod_of_pos num hpos, Int.tmod_lt_of_pos num hpos,
    fun hneg => ?_⟩
  have hnum : num ≤ 0 := by
    by_contra hno
    have hnonneg := Int.tmod_nonneg (den : Int) (not_le.1 hno).le
    omega
  have hopposite := Int.tdiv_nonneg (a := -num) (by omega) hpos.le
  rw [Int.neg_tdiv] at hopposite
  omega

/-- **Rounding to microseconds does not leave a range of seconds** after which the doubles are no
closer than those before the year 10000.  A carry upwards would need a fraction of nearly a second
behind the last one, and a carry downwards a fraction below the first. -/
theorem split_bounds {lo hi : Int} (hden : 0 < den) (hhi : 1 < hi) (hlower : lo * den ≤ num)
    (hupper : num < hi * den)
    (hgrain : (hi - 1) * den ≤ num → (((num - (hi - 1) * den : Int) : ℚ) / den) ≤ 1 - 1 / 2 ^ 15) :
    lo ≤ (split num den).1 ∧ (split num den).1 < hi := by
  have hpos : (0 : Int) < den := by exact_mod_cast hden
  obtain ⟨hsum, hlow, hhigh, hsign⟩ := tdiv_bounds num hden
  have hrest : num - num.tdiv den * den = num.tmod den := by omega
  rw [split, hrest]
  generalize num.tdiv den = seconds at hsum hsign hrest ⊢
  generalize num.tmod den = fraction at hsum hlow hhigh hsign hrest ⊢
  have hfirst : lo ≤ seconds := by
    refine Int.lt_add_one_iff.1 (lt_of_mul_lt_mul_right ?_ hpos.le)
    rw [add_mul, one_mul]
    omega
  have hlast : seconds < hi := by
    by_contra hno
    have hle : hi * den ≤ seconds * den := mul_le_mul_of_nonneg_right (not_lt.1 hno) hpos.le
    have hzero := hsign (by omega)
    omega
  unfold carried
  split_ifs with hup hdown
  · -- Only the last second could be carried out of the range, and it is not carried.
    refine ⟨by omega, ?_⟩
    by_contra hno
    obtain rfl : seconds = hi - 1 := by omega
    have hfraction : 0 ≤ fraction := by
      by_contra hneg
      have hzero := hsign (not_le.1 hneg)
      omega
    have hlt := micros_lt hden hfraction (hrest ▸ hgrain (by omega))
    omega
  · -- A fraction below zero leaves the whole seconds above the first one.
    refine ⟨?_, by omega⟩
    have hfraction : fraction < 0 := by
      by_contra hno
      have hnonneg := micros_nonneg den (not_lt.1 hno)
      omega
    have hlt : lo < seconds := lt_of_mul_lt_mul_right (by omega) hpos.le
    omega
  · exact ⟨hfirst, hlast⟩

/-! ### Times -/

/-- The doubles just below the year 10000 are multiples of 2 ^ -15. -/
theorem grain {m : Nat} {e : Int} (hfinite : Binary64.IsFinite m e)
    (hnum : num ≤ (Binary64.magnitude m e).1) (hden : den = (Binary64.magnitude m e).2)
    (hlower : (beyond - 1) * den ≤ num) (hupper : num < beyond * den) :
    (((num - (beyond - 1) * den : Int) : ℚ) / den) ≤ 1 - 1 / 2 ^ 15 := by
  have hpos : 0 < den := hden ▸ Binary64.magnitude_pos m e
  have hposq : (0 : ℚ) < den := by exact_mod_cast hpos
  rw [beyond_eq] at hlower hupper ⊢
  have hexponent : -16 < e := by
    have hsize : (2 : ℚ) ^ (37 : Int) < 2 ^ (53 + e) := by
      calc (2 : ℚ) ^ (37 : Int) ≤ 253402300800 - 1 := by norm_num
        _ ≤ (Binary64.magnitude m e).1 / (Binary64.magnitude m e).2 := by
            rw [← hden, le_div_iff₀ hposq]
            exact_mod_cast hlower.trans hnum
        _ = m * 2 ^ e := Binary64.magnitude_div m e
        _ < 2 ^ 53 * 2 ^ e := by
            have hlt : (m : ℚ) < 2 ^ 53 := by exact_mod_cast hfinite.significand_lt
            have htwo := Binary64.two_zpow_pos e
            gcongr
        _ = 2 ^ (53 + e) := by rw [zpow_add₀ (by norm_num)]; norm_num
    have hlt := (zpow_lt_zpow_iff_right₀ (by norm_num : (1 : ℚ) < 2)).1 hsize
    omega
  have hsmall : den ≤ 2 ^ 15 := by
    rw [hden]
    unfold Binary64.magnitude
    split_ifs
    · exact Nat.one_le_two_pow
    · exact Nat.pow_le_pow_right (by decide) (by omega)
  have hfraction : num - (253402300800 - 1) * den ≤ den - 1 := by omega
  have hgrain : (den : ℚ) / 2 ^ 15 ≤ 1 := by
    rw [div_le_one (by norm_num)]
    exact_mod_cast hsmall
  have hcast : ((num - (253402300800 - 1) * den : Int) : ℚ) ≤ den - 1 := by exact_mod_cast hfraction
  rw [div_le_iff₀ hposq]
  refine hcast.trans ?_
  rw [sub_mul, one_mul]
  linarith

/-- The numbers that are times of the years 1 to 9999. -/
inductive IsTime : Value → Prop where
  | int {i : Int} (lower : first ≤ i) (upper : i < beyond) : IsTime (.int i)
  | float {negative : Bool} {m : Nat} {e : Int} {num : Int} {den : Nat}
      (finite : Binary64.IsFinite m e)
      (ratio : (Binary64.finite negative m e).ratio? = some (num, den))
      (lower : first * den ≤ num) (upper : num < beyond * den) :
      IsTime (.float (.finite negative m e))

/-- **Every time of the years 1 to 9999 has a stamp.** -/
theorem exists_stamp {created : Value} (h : IsTime created) : ∃ s, stamp created = .ok s := by
  have hstamp : ∀ p, seconds created = .ok p → first ≤ p.1 → p.1 < beyond →
      ∃ text, stamp created = .ok text := by
    intro p hseconds hlower hupper
    obtain ⟨m, hm⟩ := exists_moment p.2 hlower hupper
    refine ⟨m.stamp, ?_⟩
    rw [stamp, hseconds]
    change (moment p.1 p.2 >>= fun m => pure m.stamp) = _
    rw [hm]
    rfl
  cases h with
  | int lower upper => exact hstamp (_, 0) rfl lower upper
  | @float negative m e num den finite ratio lower upper =>
    have hparts : (if negative then -((Binary64.magnitude m e).1 : Int)
        else (Binary64.magnitude m e).1) = num ∧ (Binary64.magnitude m e).2 = den :=
      Prod.mk.inj (Option.some.inj ratio)
    have hnum : num ≤ (Binary64.magnitude m e).1 := by
      rw [← hparts.1]
      split_ifs <;> omega
    have hden : 0 < den := hparts.2 ▸ Binary64.magnitude_pos m e
    have hbounds := split_bounds hden (by rw [beyond_eq]; decide) lower upper
      fun hlast => grain finite hnum hparts.2.symm hlast upper
    refine hstamp (split num den) ?_ hbounds.1 hbounds.2
    simp only [seconds, ratio]

end Clock

end Log

end BoardWiring
