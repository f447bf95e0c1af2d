import BoardWiring.Number.Shortest

/-!
# Doubles with a given number of digits

A double is written with a fixed number of digits behind the point, or with a fixed number of
significant digits, rounded from its exact value with ties to the even digit.

* `Places.fixed` is positional, `Places.exponential` has an exponent, `Places.general` chooses
  between the two by the size of the exponent.
-/

namespace BoardWiring

namespace Places

/-- Digits behind a point, which a text without such digits has only if `point` is set. -/
def fraction (point : Bool) (ds : List Char) : List Char :=
  if ds.isEmpty && !point then [] else '.' :: ds

/-- The magnitude `num / den` with `p` digits behind the point. -/
def fixed (point : Bool) (p num den : Nat) : List Char :=
  let scaled := Rounding.nearestEven (num * Nat.pow 10 p) den
  let ds := Digits.padLeft '0' (p + 1) (Digits.write 10 scaled)
  let n := ds.length - p
  ds.take n ++ fraction point (ds.drop n)

/-- The magnitude rounded to `p + 1` significant digits: its digits and its exponent. -/
def significant (p num den : Nat) : List Char × Int :=
  if num = 0 then (List.replicate (p + 1) '0', 0)
  else
    let k := Shortest.decimalExponent num den
    let s := Shortest.shifted num den ((p : Int) - k)
    let ds := Digits.write 10 (Rounding.nearestEven s.1 s.2)
    if p + 1 < ds.length then (ds.take (p + 1), k + 1) else (ds, k)

/-- The magnitude with one digit before the point, `p` behind it, and an exponent. -/
def exponential (point : Bool) (p num den : Nat) : List Char :=
  let s := significant p num den
  s.1.take 1 ++ fraction point (s.1.drop 1) ++ Shortest.exponentChars s.2

/-- Digits without the zeros at their end. -/
def stripZeros (ds : List Char) : List Char := (ds.reverse.dropWhile (· == '0')).reverse

/-- The magnitude with `max p 1` significant digits: positional if its exponent is from -4 to
below that number, with an exponent otherwise.  Trailing zeros are dropped unless `point` is
set. -/
def general (point : Bool) (p num den : Nat) : List Char :=
  let p := max p 1
  let s := significant (p - 1) num den
  let trimmed (ds : List Char) : List Char := if point then ds else stripZeros ds
  if s.2 < -4 ∨ (p : Int) ≤ s.2 then
    s.1.take 1 ++ fraction point (trimmed (s.1.drop 1)) ++ Shortest.exponentChars s.2
  else if s.2 < 0 then
    '0' :: fraction point (trimmed (List.replicate (-s.2 - 1).toNat '0' ++ s.1))
  else
    let n := s.2.toNat + 1
    s.1.take n ++ fraction point (trimmed (s.1.drop n))

end Places

end BoardWiring
