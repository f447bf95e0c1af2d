/-!
# Rounding of quotients

A quotient of natural numbers is rounded to the nearest natural number, and a quotient that lies
half-way between two goes to the even one.

* `nearestEven_le` and `le_nearestEven` say that the result is within half a unit.
-/

namespace BoardWiring

namespace Rounding

/-- The natural number nearest to `num / den`, the even one of two that are equally near. -/
def nearestEven (num den : Nat) : Nat :=
  let q := num / den
  let r := num % den
  if 2 * r < den ∨ 2 * r = den ∧ q % 2 = 0 then q else q + 1

theorem nearestEven_le {num den : Nat} : 2 * (den * nearestEven num den) ≤ 2 * num + den := by
  have h := Nat.div_add_mod num den
  simp only [nearestEven]
  split
  · omega
  · rename_i hr
    rw [Nat.mul_add, Nat.mul_one]
    omega

theorem le_nearestEven {num den : Nat} (hd : 0 < den) :
    2 * num ≤ 2 * (den * nearestEven num den) + den := by
  have h := Nat.div_add_mod num den
  have hm := Nat.mod_lt num hd
  simp only [nearestEven]
  split
  · omega
  · rw [Nat.mul_add, Nat.mul_one]
    omega

end Rounding

end BoardWiring
