import BoardWiring.Proofs.NearestDouble
import Mathlib.Tactic.LinearCombination

/-!
# The shortest digits of a double

The digits with which a double is written are read back as that double.  The search for them ends
with seventeen digits at the latest: so many are closer to a double than half of the gap to the next
one.

* `Shortest.decimalExponent_spec` says that the first digit stands where the size of the number puts
  it;
* `Shortest.readsBack_seventeen` says that the nearest number of seventeen digits is read back;
* `Scientific.Denotes` are the digits that stand for a double, and `Shortest.digits_denotes` says
  that those with which a double is written do.
-/

namespace BoardWiring

namespace Shortest

variable {num den m n : Nat} {e k : Int}

theorem ten_zpow_pos (k : Int) : (0 : ℚ) < 10 ^ k := zpow_pos (by norm_num) k

/-! ### The place of the first digit -/

theorem zpow_length_write_le (hn : 0 < n) :
    (10 : ℚ) ^ (((Digits.write 10 n).length : Int) - 1) ≤ n := by
  have hlen := List.length_pos_iff.2 (Digits.write_ne_nil 10 n)
  obtain ⟨l, hl⟩ : ∃ l, (Digits.write 10 n).length = l + 1 := ⟨_, (Nat.sub_add_cancel hlen).symm⟩
  have hle : 10 ^ l ≤ n := Digits.pow_le_of_lt_length_write hn (by omega)
  rw [hl, Nat.cast_succ, add_sub_cancel_right, zpow_natCast]
  exact_mod_cast hle

theorem lt_zpow_length_write (n : Nat) :
    (n : ℚ) < 10 ^ ((Digits.write 10 n).length : Int) := by
  rw [zpow_natCast]
  exact_mod_cast Digits.lt_pow_length_write n

/-- **The first digit stands where the size of the number puts it.** -/
theorem decimalExponent_spec (hnum : 0 < num) (hden : 0 < den) :
    (10 : ℚ) ^ decimalExponent num den ≤ num / den ∧
      (num / den : ℚ) < 10 ^ (decimalExponent num den + 1) := by
  have hdenpos : (0 : ℚ) < den := by exact_mod_cast hden
  obtain ⟨k, hk⟩ : ∃ k : Int, k = ((Digits.write 10 num).length : Int) -
      ((Digits.write 10 den).length : Int) := ⟨_, rfl⟩
  -- The numbers of digits tell the exponent up to one.
  have hlower : (10 : ℚ) ^ (k - 1) ≤ num / den := by
    rw [le_div_iff₀ hdenpos]
    calc (10 : ℚ) ^ (k - 1) * den
        ≤ 10 ^ (k - 1) * 10 ^ ((Digits.write 10 den).length : Int) := by
          have hlt := lt_zpow_length_write den
          have hpos := ten_zpow_pos (k - 1)
          gcongr
      _ = 10 ^ (((Digits.write 10 num).length : Int) - 1) := by
          rw [← zpow_add₀ (by norm_num)]
          congr 1
          omega
      _ ≤ num := zpow_length_write_le hnum
  have hupper : (num / den : ℚ) < 10 ^ (k + 1) := by
    rw [div_lt_iff₀ hdenpos]
    calc (num : ℚ) < 10 ^ ((Digits.write 10 num).length : Int) := lt_zpow_length_write num
      _ = 10 ^ (k + 1) * 10 ^ (((Digits.write 10 den).length : Int) - 1) := by
          rw [← zpow_add₀ (by norm_num)]
          congr 1
          omega
      _ ≤ 10 ^ (k + 1) * den := by
          have hle := zpow_length_write_le hden
          have hpos := ten_zpow_pos (k + 1)
          gcongr
  have hfits : (if 0 ≤ k then decide (den * Nat.pow 10 k.toNat ≤ num)
      else decide (den ≤ num * Nat.pow 10 (-k).toNat)) = true ↔ (10 : ℚ) ^ k ≤ num / den := by
    rw [le_div_iff₀ hdenpos]
    split_ifs with hsign
    · obtain ⟨j, rfl⟩ := Int.eq_ofNat_of_zero_le hsign
      rw [decide_eq_true_iff, zpow_natCast, Int.toNat_natCast, Nat.pow_eq, mul_comm]
      exact_mod_cast Iff.rfl
    · obtain ⟨j, rfl⟩ : ∃ j : Nat, k = -j := ⟨(-k).toNat, by omega⟩
      have hpos : (0 : ℚ) < 10 ^ j := by positivity
      rw [decide_eq_true_iff, zpow_neg, zpow_natCast, neg_neg, Int.toNat_natCast, Nat.pow_eq,
        inv_mul_le_iff₀ hpos, mul_comm]
      exact_mod_cast Iff.rfl
  unfold decimalExponent
  rw [← hk]
  dsimp only
  by_cases hfit : (10 : ℚ) ^ k ≤ num / den
  · rw [if_pos (hfits.2 hfit)]
    exact ⟨hfit, hupper⟩
  · rw [if_neg (fun h => hfit (hfits.1 h)), sub_add_cancel]
    exact ⟨hlower, not_le.1 hfit⟩

theorem two_pow_le_ten_pow : 2 ^ 1074 ≤ 10 ^ 324 := by decide +kernel

theorem two_pow_lt_ten_pow : 2 ^ 53 * 2 ^ 971 < 10 ^ 309 := by decide +kernel

/-- The first digit of a double stands neither very far before the point nor very far behind it. -/
theorem decimalExponent_bounds (hfinite : Binary64.IsFinite m e) (hm : 0 < m)
    (hlower : (10 : ℚ) ^ k ≤ m * 2 ^ e) (hupper : (m * 2 ^ e : ℚ) < 10 ^ (k + 1)) :
    -324 ≤ k ∧ k ≤ 308 := by
  have hten : (1 : ℚ) < 10 := by norm_num
  constructor
  · have hleast : (10 : ℚ) ^ (-324 : Int) < 10 ^ (k + 1) := by
      calc (10 : ℚ) ^ (-324 : Int) ≤ 2 ^ (-1074 : Int) := by
            rw [zpow_neg, zpow_neg]
            exact inv_anti₀ (by positivity) (by exact_mod_cast two_pow_le_ten_pow)
        _ ≤ 2 ^ e := zpow_le_zpow_right₀ (by norm_num) hfinite.min_le
        _ ≤ m * 2 ^ e := le_mul_of_one_le_left (Binary64.two_zpow_pos e).le (by exact_mod_cast hm)
        _ < 10 ^ (k + 1) := hupper
    have hlt := (zpow_lt_zpow_iff_right₀ hten).1 hleast
    omega
  · have hgreatest : (10 : ℚ) ^ k < 10 ^ (309 : Int) := by
      calc (10 : ℚ) ^ k ≤ m * 2 ^ e := hlower
        _ ≤ 2 ^ 53 * 2 ^ (971 : Int) := by
            have hle : (m : ℚ) ≤ 2 ^ 53 := by exact_mod_cast hfinite.significand_lt.le
            have hpow : (2 : ℚ) ^ e ≤ 2 ^ (971 : Int) :=
              zpow_le_zpow_right₀ (by norm_num) hfinite.le_max
            have hpos := Binary64.two_zpow_pos e
            gcongr
        _ < 10 ^ (309 : Int) := by exact_mod_cast two_pow_lt_ten_pow
    have hlt := (zpow_lt_zpow_iff_right₀ hten).1 hgreatest
    omega

/-! ### Seventeen digits -/

/-- The number of seventeen digits nearest to a double. -/
def nearestSeventeen (num den : Nat) (k : Int) : Nat :=
  Rounding.nearestEven (shifted num den (16 - k)).1 (shifted num den (16 - k)).2

theorem nearestSeventeen_near (num : Nat) (hden : 0 < den) (k : Int) :
    |(nearestSeventeen num den k : ℚ) - num / den * 10 ^ (16 - k)| ≤ 1 / 2 := by
  rw [← shifted_div]
  exact Rounding.abs_nearestEven_sub_le _ (shifted_pos num hden _)

theorem nearestSeventeen_bounds (hden : 0 < den) (hlower : (10 : ℚ) ^ k ≤ num / den)
    (hupper : (num / den : ℚ) < 10 ^ (k + 1)) :
    10 ^ 16 ≤ nearestSeventeen num den k ∧ nearestSeventeen num den k ≤ 10 ^ 17 := by
  obtain ⟨hroundLower, hroundUpper⟩ := abs_le.1 (nearestSeventeen_near num hden k)
  have hpos := ten_zpow_pos (16 - k)
  have hscaledLower : (10 : ℚ) ^ 16 ≤ num / den * 10 ^ (16 - k) := by
    calc (10 : ℚ) ^ 16 = 10 ^ k * 10 ^ (16 - k) := by
          rw [← zpow_add₀ (by norm_num), ← zpow_natCast]
          congr 1
          omega
      _ ≤ num / den * 10 ^ (16 - k) := by gcongr
  have hscaledUpper : (num / den : ℚ) * 10 ^ (16 - k) < 10 ^ 17 := by
    calc (num / den : ℚ) * 10 ^ (16 - k) < 10 ^ (k + 1) * 10 ^ (16 - k) := by gcongr
      _ = 10 ^ 17 := by
          rw [← zpow_add₀ (by norm_num), ← zpow_natCast]
          congr 1
          omega
  have hge : (10 ^ 16 : ℚ) < nearestSeventeen num den k + 1 := by linarith
  have hle : (nearestSeventeen num den k : ℚ) < 10 ^ 17 + 1 := by linarith
  constructor
  · exact Nat.lt_add_one_iff.1 (by exact_mod_cast hge)
  · exact Nat.lt_add_one_iff.1 (by exact_mod_cast hle)

/-- A number of seventeen digits, or the power of ten behind the last of them, is written with
seventeen or eighteen. -/
theorem places_bounds {c : Nat} (hlower : 10 ^ 16 ≤ c) (hupper : c ≤ 10 ^ 17) :
    17 + e ≤ Binary64.places c e ∧ Binary64.places c e ≤ 18 + e := by
  have hmany : 16 < (Digits.write 10 c).length := by
    by_contra hfew
    have hlt := Digits.lt_pow_length_write c
    have hpow : 10 ^ (Digits.write 10 c).length ≤ 10 ^ 16 :=
      Nat.pow_le_pow_right (by norm_num) (by omega)
    omega
  have hfew : (Digits.write 10 c).length ≤ 18 :=
    Digits.length_write_le (by norm_num) (Nat.lt_of_le_of_lt hupper (by norm_num))
  rw [Binary64.places]
  omega

/-- How far away the nearest number of seventeen digits is, in units of the last bit of a double. -/
theorem nearestSeventeen_error (hden : 0 < den) (hvalue : (num / den : ℚ) = m * 2 ^ e)
    (hlower : (10 : ℚ) ^ k ≤ num / den) :
    |(nearestSeventeen num den k * 10 ^ (k - 16) / 2 ^ e : ℚ) - m| ≤ m / (2 * 10 ^ 16) := by
  have hnear := nearestSeventeen_near num hden k
  rw [hvalue] at hlower hnear
  have htwo := Binary64.two_zpow_pos e
  have hpos : (0 : ℚ) ≤ 10 ^ (k - 16) / 2 ^ e := div_nonneg (ten_zpow_pos _).le htwo.le
  have hcancel : (10 : ℚ) ^ (16 - k) * 10 ^ (k - 16) = 1 := by
    rw [← zpow_add₀ (by norm_num), sub_add_sub_cancel, sub_self, zpow_zero]
  have hunit : (10 : ℚ) ^ (k - 16) / 2 ^ e ≤ m / 10 ^ 16 := by
    rw [div_le_div_iff₀ htwo (by norm_num)]
    calc (10 : ℚ) ^ (k - 16) * 10 ^ 16 = 10 ^ k := by
          rw [← zpow_natCast, ← zpow_add₀ (by norm_num)]
          congr 1
          omega
      _ ≤ m * 2 ^ e := hlower
  calc |(nearestSeventeen num den k * 10 ^ (k - 16) / 2 ^ e : ℚ) - m|
      = |(nearestSeventeen num den k - m * 2 ^ e * 10 ^ (16 - k) : ℚ) *
          (10 ^ (k - 16) / 2 ^ e)| := by
        congr 1
        field_simp
        linear_combination (2 ^ e * m : ℚ) * hcancel
    _ ≤ 1 / 2 * (m / 10 ^ 16) := by
        rw [abs_mul, abs_of_nonneg hpos]
        gcongr
    _ = m / (2 * 10 ^ 16) := by ring

/-- **Seventeen digits are read back.**  The nearest number of so many is less than half of a unit
away, and less than a quarter where the significand is a power of two. -/
theorem readsBack_seventeen (negative : Bool) (hfinite : Binary64.IsFinite m e) (hm : 0 < m)
    (hden : 0 < den) (hvalue : (num / den : ℚ) = m * 2 ^ e)
    (hlower : (10 : ℚ) ^ k ≤ num / den) (hupper : (num / den : ℚ) < 10 ^ (k + 1)) :
    Binary64.ofDecimal negative (nearestSeventeen num den k) (k - 16) = .finite negative m e := by
  have hbounds := nearestSeventeen_bounds hden hlower hupper
  have herror := nearestSeventeen_error hden hvalue hlower
  obtain ⟨hkmin, hkmax⟩ := decimalExponent_bounds hfinite hm (hvalue ▸ hlower) (hvalue ▸ hupper)
  generalize nearestSeventeen num den k = c at hbounds herror
  have hcpos : 0 < c := Nat.lt_of_lt_of_le (by norm_num) hbounds.1
  have hplaces := places_bounds (e := k - 16) hbounds.1 hbounds.2
  have hsmall : (m : ℚ) < 2 ^ 53 := by exact_mod_cast hfinite.significand_lt
  have hquot : ((shifted c 1 (k - 16)).1 / (shifted c 1 (k - 16)).2 : ℚ) = c * 10 ^ (k - 16) := by
    rw [shifted_div, Nat.cast_one, div_one]
  rw [Binary64.ofDecimal_eq_ofRatio negative hcpos.ne' (by omega) (by omega)]
  refine Binary64.ofRatio_of_near negative ?_ (shifted_pos c Nat.one_pos _) hfinite ?_ ?_
  · unfold shifted
    split_ifs
    · exact Nat.mul_pos hcpos (Nat.pow_pos (by norm_num))
    · exact hcpos
  · -- The significand is below 10 ^ 16, so its share of the error is below a half.
    rw [hquot]
    refine herror.trans_lt ?_
    linarith
  · rintro rfl
    rw [hquot]
    have hbelow := (abs_le.1 herror).1
    push_cast at hbelow ⊢
    linarith

end Shortest

/-! ### Digits that stand for a double -/

/-- Digits that are read back as a double other than zero. -/
structure Scientific.Denotes (s : Scientific) (x : Binary64) : Prop where
  /-- There is a first digit, and it is not zero. -/
  exists_head : ∃ d ds, s.digits = Digits.digit d :: ds ∧ 0 < d ∧ d < 10
  /-- The others are digits as well. -/
  exists_digit : ∀ c ∈ s.digits, ∃ d < 10, c = Digits.digit d
  /-- The last digit stands as many places behind the first as there are others. -/
  reads_back : Binary64.ofDecimal x.isNegative (Digits.number 10 s.digits)
    (s.exponent + 1 - s.digits.length) = x

namespace Shortest

theorem exists_scientific (c : Nat) (k : Int) :
    ∃ z, Digits.write 10 c = (scientific c k).digits ++ List.replicate z '0' := by
  obtain ⟨ds, hds⟩ : ∃ ds, ds = (Digits.write 10 c).reverse := ⟨_, rfl⟩
  have hzeros : ∀ c ∈ ds.takeWhile (· == '0'), c = '0' :=
    fun c hc => eq_of_beq (List.all_eq_true.1 List.all_takeWhile c hc)
  refine ⟨(ds.takeWhile (· == '0')).length, ?_⟩
  calc Digits.write 10 c = ds.reverse := by rw [hds, List.reverse_reverse]
    _ = (ds.takeWhile (· == '0') ++ ds.dropWhile (· == '0')).reverse := by
        rw [List.takeWhile_append_dropWhile]
    _ = (scientific c k).digits ++ List.replicate (ds.takeWhile (· == '0')).length '0' := by
        rw [List.reverse_append, List.eq_replicate_of_mem hzeros, List.reverse_replicate,
          List.length_replicate, scientific, hds]

theorem scientific_denotes {c : Nat} {x : Binary64} (hc : 0 < c)
    (h : Binary64.ofDecimal x.isNegative c k = x) : (scientific c k).Denotes x := by
  obtain ⟨z, hz⟩ := exists_scientific c k
  obtain ⟨d, ds, hwrite, hd⟩ := Digits.exists_write_of_pos (by decide : 1 < 10) hc
  have hmem : ∀ c' ∈ (scientific c k).digits, c' ∈ Digits.write 10 c := by
    intro c' hc'
    rw [hz]
    exact List.mem_append_left _ hc'
  refine ⟨?_, fun c' hc' => Digits.exists_of_mem_write (by decide) (hmem c' hc'), ?_⟩
  · rw [hwrite] at hz
    rcases List.cons_eq_append_iff.1 hz with ⟨-, hzeros⟩ | ⟨ds', hdigits, -⟩
    · have hzero : Digits.digit d = Digits.digit 0 :=
        List.eq_of_mem_replicate (hzeros ▸ List.mem_cons_self)
      have hno := Digits.digit_injective (by omega) (by decide) hzero
      omega
    · exact ⟨d, ds', hdigits, hd⟩
  · have hnumber : Digits.number 10 (scientific c k).digits * Nat.pow 10 z = c := by
      rw [← Digits.number_append_zeros, ← hz, Digits.number_write (by decide) (by decide)]
    have hlength := congrArg List.length hz
    rw [List.length_append, List.length_replicate] at hlength
    have hlast : (scientific c k).exponent + 1 - (scientific c k).digits.length - z = k := by
      rw [show (scientific c k).exponent = k + ((Digits.write 10 c).length : Int) - 1 from rfl]
      omega
    rw [← Binary64.ofDecimal_scale _ _ _ z, hnumber, hlast, h]

theorem exists_of_withDigits? {x : Binary64} {s : Scientific}
    (h : withDigits? x num den k n = some s) :
    ∃ c, s = scientific c (k - n + 1) ∧ Binary64.ofDecimal x.isNegative c (k - n + 1) = x := by
  unfold withDigits? at h
  extract_lets last scaled low readsBack nearest other at h
  split_ifs at h with hnearest hother
  · exact ⟨_, (Option.some.inj h).symm, of_decide_eq_true hnearest⟩
  · exact ⟨_, (Option.some.inj h).symm, of_decide_eq_true hother⟩

theorem withDigits?_seventeen {x : Binary64}
    (h : Binary64.ofDecimal x.isNegative (nearestSeventeen num den k) (k - 16) = x) :
    withDigits? x num den k 17 = some (scientific (nearestSeventeen num den k) (k - 16)) := by
  have hlast : k - ((17 : Nat) : Int) + 1 = k - 16 := by omega
  have hshift : -(k - 16) = 16 - k := by omega
  rw [nearestSeventeen] at h ⊢
  rw [withDigits?]
  simp only [hlast, hshift, h, decide_true, if_true]

/-- **A double is written with digits that stand for it.** -/
theorem digits_denotes (negative : Bool) (hfinite : Binary64.IsFinite m e) (hm : 0 < m) :
    (digits (.finite negative m e) m e).Denotes (.finite negative m e) := by
  have hnum : 0 < (Binary64.magnitude m e).1 := by
    unfold Binary64.magnitude
    split_ifs
    · exact Nat.mul_pos hm (Nat.pow_pos (by decide))
    · exact hm
  have hden := Binary64.magnitude_pos m e
  have hvalue := Binary64.magnitude_div m e
  obtain ⟨hlower, hupper⟩ := decimalExponent_spec hnum hden
  obtain ⟨k, hk⟩ : ∃ k, k = decimalExponent (Binary64.magnitude m e).1 (Binary64.magnitude m e).2 :=
    ⟨_, rfl⟩
  rw [← hk] at hlower hupper
  have hseventeen := withDigits?_seventeen (x := .finite negative m e)
    (readsBack_seventeen negative hfinite hm hden hvalue hlower hupper)
  have hfound : ((List.range 17).findSome? fun n => withDigits? (.finite negative m e)
      (Binary64.magnitude m e).1 (Binary64.magnitude m e).2 k (n + 1)).isSome := by
    rw [List.findSome?_isSome_iff]
    exact ⟨16, List.mem_range.2 (by decide), by rw [hseventeen]; rfl⟩
  obtain ⟨s, hs⟩ := Option.isSome_iff_exists.1 hfound
  obtain ⟨n, -, hn⟩ := List.exists_of_findSome?_eq_some hs
  -- Fewer digits may have been found, of which only that they are read back is known.
  obtain ⟨c, rfl, hread⟩ := exists_of_withDigits? hn
  have hc : 0 < c := by
    rcases Nat.eq_zero_or_pos c with rfl | hpos
    · rw [Binary64.ofDecimal_zero] at hread
      cases hread
      exact absurd rfl hm.ne'
    · exact hpos
  rw [digits, ← hk]
  simp only [hs, Option.getD_some]
  exact scientific_denotes hc hread

end Shortest

end BoardWiring
