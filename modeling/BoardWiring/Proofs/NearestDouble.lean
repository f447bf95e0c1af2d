import BoardWiring.Number.Shortest
import BoardWiring.Proofs.Numerals
import Mathlib.Algebra.Order.Field.Power
import Mathlib.Data.Rat.Cast.Order
import Mathlib.Tactic.FieldSimp
import Mathlib.Tactic.Linarith
import Mathlib.Tactic.NormNum
import Mathlib.Tactic.Positivity
import Mathlib.Tactic.Ring

/-!
# Rounding to the nearest double

A quotient is rounded by its value alone, not by its numerator and denominator, and a double is what
every number near to it is rounded to.

* `Rounding.nearestEven_congr` and `Binary64.ofRatio_congr` say that equal quotients are rounded
  alike;
* `Binary64.unitExponent_spec` says that the exponent chosen for a quotient is the one with a
  significand of 53 bits;
* `Binary64.IsFinite` are the finite doubles, and `Binary64.ofRatio_of_near` says that a quotient is
  rounded to such a double if it is less than half a unit away, or less than a quarter of one where
  the doubles below it lie closer.
-/

namespace BoardWiring

namespace Rounding

variable {num den num' den' n k : Nat}

theorem nearestEven_mul_left (num den : Nat) (hk : 0 < k) :
    nearestEven (k * num) (k * den) = nearestEven num den := by
  have hdiv : k * num / (k * den) = num / den := Nat.mul_div_mul_left num den hk
  have hmod : k * num % (k * den) = k * (num % den) := Nat.mul_mod_mul_left k num den
  have hlt : 2 * (k * (num % den)) < k * den ↔ 2 * (num % den) < den := by
    rw [Nat.mul_left_comm, Nat.mul_lt_mul_left hk]
  have heq : 2 * (k * (num % den)) = k * den ↔ 2 * (num % den) = den := by
    rw [Nat.mul_left_comm, Nat.mul_right_inj (by omega)]
  simp only [nearestEven, hdiv, hmod, hlt, heq]

/-- **Equal quotients are rounded alike.** -/
theorem nearestEven_congr (hden : 0 < den) (hden' : 0 < den')
    (h : (num / den : ℚ) = num' / den') : nearestEven num den = nearestEven num' den' := by
  have hcross : num * den' = num' * den := by
    have hne : (den : ℚ) ≠ 0 := by exact_mod_cast hden.ne'
    have hne' : (den' : ℚ) ≠ 0 := by exact_mod_cast hden'.ne'
    exact_mod_cast (div_eq_div_iff hne hne').1 h
  rw [← nearestEven_mul_left num den hden', ← nearestEven_mul_left num' den' hden,
    Nat.mul_comm den' num, hcross, Nat.mul_comm num' den, Nat.mul_comm den' den]

/-- What a quotient is rounded to is at most half a unit away. -/
theorem abs_nearestEven_sub_le (num : Nat) (hden : 0 < den) :
    |(nearestEven num den : ℚ) - num / den| ≤ 1 / 2 := by
  have hpos : (0 : ℚ) < den := by exact_mod_cast hden
  have hupper : (2 * (den * nearestEven num den) : ℚ) ≤ 2 * num + den := by
    exact_mod_cast nearestEven_le
  have hlower : (2 * num : ℚ) ≤ 2 * (den * nearestEven num den) + den := by
    exact_mod_cast le_nearestEven hden
  have hquot : (num / den : ℚ) * den = num := div_mul_cancel₀ _ hpos.ne'
  rw [abs_le]
  constructor <;> nlinarith

theorem nearestEven_of_near (hden : 0 < den) (h : |(num / den : ℚ) - n| < 1 / 2) :
    nearestEven num den = n := by
  have hround := abs_nearestEven_sub_le num hden
  have hdist : |(nearestEven num den : ℚ) - n| < 1 := by
    calc |(nearestEven num den : ℚ) - n|
        ≤ |(nearestEven num den : ℚ) - num / den| + |(num / den : ℚ) - n| :=
          abs_sub_le _ _ _
      _ < 1 := by linarith
  have hcast : |((nearestEven num den : Int) - n : Int)| < 1 := by exact_mod_cast hdist
  rw [Int.abs_lt_one_iff] at hcast
  omega

end Rounding

namespace Binary64

variable {num den num' den' m : Nat} {e f : Int} {q : ℚ}

/-! ### Quotients -/

theorem scaled_pos (num : Nat) (hden : 0 < den) (e : Int) : 0 < (scaled num den e).2 := by
  unfold scaled
  split_ifs
  · exact Nat.mul_pos hden (Nat.pow_pos (by decide))
  · exact hden

theorem scaled_div (num den : Nat) (e : Int) :
    ((scaled num den e).1 : ℚ) / (scaled num den e).2 = num / den / 2 ^ e := by
  unfold scaled
  split_ifs with he
  · obtain ⟨n, rfl⟩ := Int.eq_ofNat_of_zero_le he
    simp [div_div]
  · obtain ⟨n, rfl⟩ : ∃ n : Nat, e = -n := ⟨(-e).toNat, by omega⟩
    simp [mul_div_right_comm]

theorem magnitude_pos (m : Nat) (e : Int) : 0 < (magnitude m e).2 := by
  unfold magnitude
  split_ifs
  · exact Nat.one_pos
  · exact Nat.pow_pos (by decide)

theorem magnitude_div (m : Nat) (e : Int) :
    ((magnitude m e).1 : ℚ) / (magnitude m e).2 = m * 2 ^ e := by
  unfold magnitude
  split_ifs with he
  · obtain ⟨n, rfl⟩ := Int.eq_ofNat_of_zero_le he
    simp
  · obtain ⟨n, rfl⟩ : ∃ n : Nat, e = -n := ⟨(-e).toNat, by omega⟩
    simp [div_eq_mul_inv]

theorem two_zpow_pos (e : Int) : (0 : ℚ) < 2 ^ e := zpow_pos (by norm_num) e

/-! ### Exponents -/

/-- A number is brought between 2 ^ 52 and 2 ^ 53 by dividing it by a power of two. -/
def IsUnit (q : ℚ) (e : Int) : Prop := 2 ^ 52 ≤ q / 2 ^ e ∧ q / 2 ^ e < 2 ^ 53

theorem le_of_isUnit (h : IsUnit q e) (hlt : q / 2 ^ f < 2 ^ 53) : e ≤ f := by
  have hle : (2 : ℚ) ^ (52 + e) ≤ q := by
    rw [zpow_add₀ (by norm_num)]
    exact (le_div_iff₀ (two_zpow_pos e)).1 (by exact_mod_cast h.1)
  have hgt : q < (2 : ℚ) ^ (53 + f) := by
    rw [zpow_add₀ (by norm_num)]
    exact (div_lt_iff₀ (two_zpow_pos f)).1 (by exact_mod_cast hlt)
  have hexp := (zpow_lt_zpow_iff_right₀ (by norm_num : (1 : ℚ) < 2)).1 (hle.trans_lt hgt)
  omega

theorem IsUnit.unique (he : IsUnit q e) (hf : IsUnit q f) : e = f :=
  Int.le_antisymm (le_of_isUnit he hf.2) (le_of_isUnit hf he.2)

theorem two_zpow_log2_le {n : Nat} (hn : 0 < n) : (2 : ℚ) ^ (Nat.log2 n : Int) ≤ n := by
  exact_mod_cast Nat.log2_self_le hn.ne'

theorem lt_two_zpow_log2 (n : Nat) : (n : ℚ) < 2 ^ ((Nat.log2 n : Int) + 1) := by
  exact_mod_cast Nat.lt_log2_self

/-- **The exponent chosen for a quotient is the one with a significand of 53 bits.** -/
theorem unitExponent_spec (hnum : 0 < num) (hden : 0 < den) :
    IsUnit (num / den) (unitExponent num den) := by
  have hdenpos : (0 : ℚ) < den := by exact_mod_cast hden
  obtain ⟨e, he⟩ : ∃ e : Int, e = (Nat.log2 num : Int) - (Nat.log2 den : Int) - 53 := ⟨_, rfl⟩
  -- The quotient of the leading bits is off by less than a factor of two.
  have hlower : 2 ^ 52 ≤ (num / den : ℚ) / 2 ^ e := by
    rw [le_div_iff₀ (two_zpow_pos e), le_div_iff₀ hdenpos]
    calc (2 ^ 52 * 2 ^ e * den : ℚ)
        ≤ 2 ^ 52 * 2 ^ e * 2 ^ ((Nat.log2 den : Int) + 1) := by
          have hlt := lt_two_zpow_log2 den
          have hpos := two_zpow_pos e
          gcongr
      _ = 2 ^ (Nat.log2 num : Int) := by
          rw [← zpow_natCast, ← zpow_add₀ (by norm_num), ← zpow_add₀ (by norm_num)]
          congr 1
          omega
      _ ≤ num := two_zpow_log2_le hnum
  have hupper : (num / den : ℚ) / 2 ^ e < 2 ^ 54 := by
    rw [div_lt_iff₀ (two_zpow_pos e), div_lt_iff₀ hdenpos]
    calc (num : ℚ) < 2 ^ ((Nat.log2 num : Int) + 1) := lt_two_zpow_log2 num
      _ = 2 ^ 54 * 2 ^ e * 2 ^ (Nat.log2 den : Int) := by
          rw [← zpow_natCast, ← zpow_add₀ (by norm_num), ← zpow_add₀ (by norm_num)]
          congr 1
          omega
      _ ≤ 2 ^ 54 * 2 ^ e * den := by
          have hle := two_zpow_log2_le hden
          have hpos := two_zpow_pos e
          gcongr
  have hspos : (0 : ℚ) < (scaled num den e).2 := by exact_mod_cast scaled_pos num hden e
  have htest : (scaled num den e).1 < (scaled num den e).2 * Nat.pow 2 53 ↔
      (num / den : ℚ) / 2 ^ e < 2 ^ 53 := by
    rw [← scaled_div, div_lt_iff₀ hspos, mul_comm]
    exact_mod_cast Iff.rfl
  unfold unitExponent
  rw [← he]
  -- The test is exact, so the quotient is halved once more when it has to be, and only then.
  dsimp only
  split_ifs with hsmall
  · exact ⟨hlower, htest.1 hsmall⟩
  · have hbig : (2 : ℚ) ^ 53 ≤ num / den / 2 ^ e := not_lt.1 (fun h => hsmall (htest.2 h))
    have hhalf : (num / den : ℚ) / 2 ^ (e + 1) = num / den / 2 ^ e / 2 := by
      rw [zpow_add_one₀ (by norm_num), div_div _ _ (2 : ℚ)]
    rw [IsUnit, hhalf]
    constructor <;> linarith

/-- The exponent chosen for a quotient depends on its value alone. -/
theorem unitExponent_eq (hnum : 0 < num) (hden : 0 < den) (h : IsUnit (num / den) e) :
    unitExponent num den = e :=
  (unitExponent_spec hnum hden).unique h

/-- The exponent with which a positive quotient is rounded is the least one with a significand below
2 ^ 53. -/
theorem max_unitExponent_eq (hnum : 0 < num) (hden : 0 < den)
    (hlt : (num / den : ℚ) / 2 ^ e < 2 ^ 53) (hmin : minExponent ≤ e)
    (h : 2 ^ 52 ≤ (num / den : ℚ) / 2 ^ e ∨ e = minExponent) :
    max minExponent (unitExponent num den) = e := by
  rcases h with h | rfl
  · rw [unitExponent_eq hnum hden ⟨h, hlt⟩, max_eq_right hmin]
  · exact max_eq_left (le_of_isUnit (unitExponent_spec hnum hden) hlt)

/-! ### Rounding to a double -/

theorem ofRatio_of_pos (negative : Bool) (hnum : 0 < num) :
    ofRatio negative num den =
      ofParts negative
        (Rounding.nearestEven (scaled num den (max minExponent (unitExponent num den))).1
          (scaled num den (max minExponent (unitExponent num den))).2)
        (max minExponent (unitExponent num den)) :=
  if_neg hnum.ne'

/-- **Equal quotients are rounded to one double.** -/
theorem ofRatio_congr (negative : Bool) (hden : 0 < den) (hden' : 0 < den')
    (h : (num / den : ℚ) = num' / den') :
    ofRatio negative num den = ofRatio negative num' den' := by
  have hne : (den : ℚ) ≠ 0 := by exact_mod_cast hden.ne'
  have hne' : (den' : ℚ) ≠ 0 := by exact_mod_cast hden'.ne'
  rcases Nat.eq_zero_or_pos num with rfl | hnum
  · have hzero : num' = 0 := by
      have hquot : (num' / den' : ℚ) = 0 := by simpa using h.symm
      exact_mod_cast (div_eq_zero_iff.1 hquot).resolve_right hne'
    rw [hzero, ofRatio, ofRatio, if_pos rfl, if_pos rfl]
  · have hnum' : 0 < num' := by
      have hquot : (num' / den' : ℚ) ≠ 0 := by
        rw [← h]
        exact div_ne_zero (by exact_mod_cast hnum.ne') hne
      exact Nat.pos_of_ne_zero (fun hzero => hquot (by simp [hzero]))
    have hexp : unitExponent num den = unitExponent num' den' :=
      unitExponent_eq hnum hden (h ▸ unitExponent_spec hnum' hden')
    rw [ofRatio_of_pos negative hnum, ofRatio_of_pos negative hnum', hexp]
    congr 1
    refine Rounding.nearestEven_congr (scaled_pos _ hden _) (scaled_pos _ hden' _) ?_
    rw [scaled_div, scaled_div, h]

theorem ofRatio_sign {negative s : Bool} (h : ofRatio negative num den = .finite s m e) :
    s = negative := by
  rcases Nat.eq_zero_or_pos num with rfl | hnum
  · rw [ofRatio, if_pos rfl] at h
    cases h
    rfl
  · rw [ofRatio_of_pos negative hnum, ofParts] at h
    split_ifs at h
    all_goals
      cases h
      rfl

theorem ofParts_value {negative s : Bool} {n : Nat} (h : ofParts negative n f = .finite s m e) :
    (m * 2 ^ e : ℚ) = n * 2 ^ f := by
  unfold ofParts at h
  rw [Nat.pow_eq, Nat.pow_eq] at h
  dsimp only at h
  split_ifs at h with hcarried hgreat
  · cases h
    rw [hcarried, zpow_add_one₀ (by norm_num)]
    push_cast
    ring
  · cases h
    rfl

/-- **What a quotient is rounded to is at most half a unit away**, and a unit is no greater than the
number that brings the quotient below 2 ^ 53. -/
theorem ofRatio_error {negative s : Bool} (hden : 0 < den)
    (h : ofRatio negative num den = .finite s m e) (hmin : minExponent ≤ f)
    (hlt : (num / den : ℚ) / 2 ^ f < 2 ^ 53) :
    |(m * 2 ^ e : ℚ) - num / den| ≤ 2 ^ f / 2 := by
  have hf := two_zpow_pos f
  rcases Nat.eq_zero_or_pos num with rfl | hnum
  · rw [ofRatio, if_pos rfl] at h
    cases h
    simp only [Nat.cast_zero, zero_mul, zero_div, sub_self, abs_zero]
    positivity
  · obtain ⟨g, hg⟩ : ∃ g, g = max minExponent (unitExponent num den) := ⟨_, rfl⟩
    rw [ofRatio_of_pos negative hnum, ← hg] at h
    -- The exponent in use may be smaller than `f`, which makes its unit smaller too.
    have hgf : g ≤ f := by
      rw [hg]
      exact max_le hmin (le_of_isUnit (unitExponent_spec hnum hden) hlt)
    have hround := Rounding.abs_nearestEven_sub_le (scaled num den g).1 (scaled_pos num hden g)
    have hpow : (2 : ℚ) ^ g ≤ 2 ^ f := zpow_le_zpow_right₀ (by norm_num) hgf
    have hgpos := two_zpow_pos g
    rw [scaled_div] at hround
    rw [ofParts_value h]
    calc |(Rounding.nearestEven (scaled num den g).1 (scaled num den g).2 * 2 ^ g : ℚ) - num / den|
        = |(Rounding.nearestEven (scaled num den g).1 (scaled num den g).2 : ℚ) -
            num / den / 2 ^ g| * 2 ^ g := by
          rw [← abs_of_pos hgpos, ← abs_mul, abs_of_pos hgpos, sub_mul,
            div_mul_cancel₀ _ hgpos.ne']
      _ ≤ 1 / 2 * 2 ^ g := by gcongr
      _ ≤ 2 ^ f / 2 := by linarith

/-- A finite double has a significand of 53 bits, or of fewer at the least exponent. -/
structure IsFinite (m : Nat) (e : Int) : Prop where
  /-- The significand has at most 53 bits. -/
  significand_lt : m < 2 ^ 53
  /-- The exponent is not too small. -/
  min_le : minExponent ≤ e
  /-- The exponent is not too great. -/
  le_max : e ≤ maxExponent
  /-- Fewer bits have the doubles near zero only. -/
  normal : 2 ^ 52 ≤ m ∨ e = minExponent

instance (m : Nat) (e : Int) : Decidable (IsFinite m e) :=
  decidable_of_iff (m < 2 ^ 53 ∧ minExponent ≤ e ∧ e ≤ maxExponent ∧ (2 ^ 52 ≤ m ∨ e = minExponent))
    ⟨fun ⟨h1, h2, h3, h4⟩ => ⟨h1, h2, h3, h4⟩, fun ⟨h1, h2, h3, h4⟩ => ⟨h1, h2, h3, h4⟩⟩

/-- **A quotient near to a double is rounded to it.**  Below a double whose significand is a power
of two the doubles are closer, and there a quarter of a unit takes the place of a half. -/
theorem ofRatio_of_near (negative : Bool) (hnum : 0 < num) (hden : 0 < den) (hfinite : IsFinite m e)
    (hnear : |(num / den : ℚ) / 2 ^ e - m| < 1 / 2)
    (hbelow : m = 2 ^ 52 → (m : ℚ) - 1 / 4 < num / den / 2 ^ e) :
    ofRatio negative num den = .finite negative m e := by
  obtain ⟨hlt, hmin, hmax, hnormal⟩ := hfinite
  obtain ⟨y, hy⟩ : ∃ y : ℚ, y = num / den / 2 ^ e := ⟨_, rfl⟩
  rw [← hy] at hnear hbelow
  have hround : ∀ f n, |(num / den : ℚ) / 2 ^ f - (n : Nat)| < 1 / 2 →
      Rounding.nearestEven (scaled num den f).1 (scaled num den f).2 = n := by
    intro f n hn
    rw [← scaled_div] at hn
    exact Rounding.nearestEven_of_near (scaled_pos num hden f) hn
  obtain ⟨hyLower, hyUpper⟩ := abs_lt.1 hnear
  have hsmall : (m : ℚ) + 1 ≤ 2 ^ 53 := by exact_mod_cast hlt
  rw [ofRatio_of_pos negative hnum]
  by_cases hunit : 2 ^ 52 ≤ y ∨ e = minExponent
  · have hcarry : ¬m = Nat.pow 2 53 := by
      rw [Nat.pow_eq]
      omega
    have hexp := max_unitExponent_eq (e := e) hnum hden (hy ▸ by linarith) hmin (hy ▸ hunit)
    rw [hexp, hround e m (hy ▸ hnear), ofParts]
    simp only [hcarry, if_false, not_lt.2 hmax]
  · obtain ⟨hyBelow, hnotMin⟩ := not_or.1 hunit
    rw [not_le] at hyBelow
    -- The quotient lies below the power of two, where it is rounded with the next smaller exponent.
    have hpower : m = 2 ^ 52 := by
      have hle := hnormal.resolve_right hnotMin
      have hge : (m : ℚ) < 2 ^ 52 + 1 := by linarith
      have hge' : m < 2 ^ 52 + 1 := by exact_mod_cast hge
      omega
    have hquarter := hbelow hpower
    subst hpower
    have hdouble : (num / den : ℚ) / 2 ^ (e - 1) = 2 * y := by
      rw [hy, zpow_sub_one₀ (by norm_num)]
      field_simp
    push_cast at hquarter
    have hexp := max_unitExponent_eq (e := e - 1) hnum hden (by rw [hdouble]; linarith)
      (by omega) (Or.inl (by rw [hdouble]; linarith))
    have hnearCarried : |(num / den : ℚ) / 2 ^ (e - 1) - (2 ^ 53 : Nat)| < 1 / 2 := by
      rw [hdouble, abs_lt]
      push_cast
      constructor <;> linarith
    rw [hexp, hround (e - 1) (2 ^ 53) hnearCarried, ofParts, Nat.pow_eq, Nat.pow_eq]
    simp only [if_true, Int.sub_add_cancel, not_lt.2 hmax, if_false]

end Binary64

/-! ### Decimal numbers -/

namespace Shortest

variable {num den : Nat}

theorem shifted_pos (num : Nat) (hden : 0 < den) (k : Int) : 0 < (shifted num den k).2 := by
  unfold shifted
  split_ifs
  · exact hden
  · exact Nat.mul_pos hden (Nat.pow_pos (by decide))

theorem shifted_div (num den : Nat) (k : Int) :
    ((shifted num den k).1 : ℚ) / (shifted num den k).2 = num / den * 10 ^ k := by
  unfold shifted
  split_ifs with hk
  · obtain ⟨n, rfl⟩ := Int.eq_ofNat_of_zero_le hk
    simp [mul_div_right_comm]
  · obtain ⟨n, rfl⟩ : ∃ n : Nat, k = -n := ⟨(-k).toNat, by omega⟩
    rw [neg_neg, Int.toNat_natCast, zpow_neg, zpow_natCast, ← div_eq_mul_inv, div_div]
    push_cast [Nat.pow_eq]
    rfl

end Shortest

namespace Binary64

/-- The power of ten just above the first digit of a decimal number. -/
def places (m : Nat) (e : Int) : Int := (Digits.write 10 m).length + e

theorem ofDecimal_zero (negative : Bool) (e : Int) : ofDecimal negative 0 e = zero negative := by
  rw [ofDecimal, if_pos (Or.inl rfl)]

/-- A decimal number that is not far out of range is rounded as the quotient that it is. -/
theorem ofDecimal_eq_ofRatio (negative : Bool) {m : Nat} {e : Int} (hm : m ≠ 0)
    (hmin : -330 ≤ places m e) (hmax : places m e ≤ 310) :
    ofDecimal negative m e =
      ofRatio negative (Shortest.shifted m 1 e).1 (Shortest.shifted m 1 e).2 := by
  have hsmall : ¬(m = 0 ∨ places m e < -330) := by omega
  unfold ofDecimal
  rw [← places, if_neg hsmall, if_neg (not_lt.2 hmax)]
  unfold Shortest.shifted
  split_ifs
  · rfl
  · rw [Nat.one_mul]

/-- **Zeros behind a decimal number do not count.** -/
theorem ofDecimal_scale (negative : Bool) (m : Nat) (e : Int) (k : Nat) :
    ofDecimal negative (m * Nat.pow 10 k) (e - k) = ofDecimal negative m e := by
  rcases Nat.eq_zero_or_pos m with rfl | hm
  · rw [Nat.zero_mul, ofDecimal_zero, ofDecimal_zero]
  have hpow : 0 < m * Nat.pow 10 k := Nat.mul_pos hm (Nat.pow_pos (by decide))
  have hplaces : places (m * Nat.pow 10 k) (e - k) = places m e := by
    rw [places, Digits.write_mul_pow (by decide) hm.ne', List.length_append,
      List.length_replicate, places]
    omega
  -- Far out of range it is the number of places that decides, and it has not changed.
  by_cases hmin : places m e < -330
  · rw [ofDecimal, ← places, hplaces, if_pos (Or.inr hmin), ofDecimal, ← places,
      if_pos (Or.inr hmin)]
  by_cases hmax : 310 < places m e
  · have hsmall : ∀ n : Nat, 0 < n → ¬(n = 0 ∨ places m e < -330) := by omega
    rw [ofDecimal, ← places, hplaces, if_neg (hsmall _ hpow), if_pos hmax, ofDecimal, ← places,
      if_neg (hsmall _ hm), if_pos hmax]
  rw [ofDecimal_eq_ofRatio negative hpow.ne' (by omega) (by omega),
    ofDecimal_eq_ofRatio negative hm.ne' (by omega) (by omega)]
  refine ofRatio_congr negative (Shortest.shifted_pos _ Nat.one_pos _)
    (Shortest.shifted_pos _ Nat.one_pos _) ?_
  rw [Shortest.shifted_div, Shortest.shifted_div, zpow_sub₀ (by norm_num), zpow_natCast]
  have hne : (10 : ℚ) ^ k ≠ 0 := by positivity
  push_cast [Nat.pow_eq]
  field_simp

end Binary64

end BoardWiring
