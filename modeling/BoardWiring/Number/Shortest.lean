import BoardWiring.Number.Binary64

/-!
# Shortest decimal texts of doubles

A double is written with the fewest significant digits that read back as the same double, and
among those with the digits nearest to it, a tie going to the even digit.  Exponents from -4 to
15 are written positionally, with at least one digit behind the point; the others are written
with an exponent of at least two digits.

* `Shortest.digits` are the chosen digits, `Shortest.text` is the written form.
-/

namespace BoardWiring

/-- Significant digits without trailing zeros, the first of them standing for
`10 ^ exponent`. -/
structure Scientific where
  /-- Significant digits. -/
  digits : List Char
  /-- Power of ten of the first digit. -/
  exponent : Int

namespace Shortest

/-- The greatest `k` with `10 ^ k ≤ num / den`, for a positive quotient. -/
def decimalExponent (num den : Nat) : Int :=
  let k : Int := ((Digits.write 10 num).length : Int) - ((Digits.write 10 den).length : Int)
  let fits : Bool :=
    if 0 ≤ k then decide (den * Nat.pow 10 k.toNat ≤ num)
    else decide (den ≤ num * Nat.pow 10 (-k).toNat)
  if fits then k else k - 1

/-- The quotient `num / den` times `10 ^ k`. -/
def shifted (num den : Nat) (k : Int) : Nat × Nat :=
  if 0 ≤ k then (num * Nat.pow 10 k.toNat, den) else (num, den * Nat.pow 10 (-k).toNat)

/-- The digits of `c`, the last of which stands for `10 ^ k`, trailing zeros dropped. -/
def scientific (c : Nat) (k : Int) : Scientific :=
  let ds := Digits.write 10 c
  { digits := (ds.reverse.dropWhile (· == '0')).reverse
    exponent := k + (ds.length : Int) - 1 }

/-- The number of at most `n` digits nearest to the finite double `x`, of magnitude
`num / den` with first digit at `10 ^ k`, among those that read back as `x`. -/
def withDigits? (x : Binary64) (num den : Nat) (k : Int) (n : Nat) : Option Scientific :=
  let last : Int := k - (n : Int) + 1
  let s := shifted num den (-last)
  let low := s.1 / s.2
  let readsBack (c : Nat) : Bool := decide (Binary64.ofDecimal x.isNegative c last = x)
  let nearest := Rounding.nearestEven s.1 s.2
  let other := if nearest = low then low + 1 else low
  if readsBack nearest then some (scientific nearest last)
  else if readsBack other then some (scientific other last)
  else none

/-- The shortest digits of a finite double other than zero; seventeen are always enough. -/
def digits (x : Binary64) (m : Nat) (e : Int) : Scientific :=
  let r := Binary64.magnitude m e
  let k := decimalExponent r.1 r.2
  let found := (List.range 17).findSome? fun n => withDigits? x r.1 r.2 k (n + 1)
  found.getD (scientific r.1 0)

/-! ### Layout -/

/-- Digits behind the point, at least one. -/
def orZero (ds : List Char) : List Char := if ds.isEmpty then ['0'] else ds

/-- The exponent of a number, its sign always written and at least two digits. -/
def exponentChars (e : Int) : List Char :=
  'e' :: (if e < 0 then '-' else '+') :: Digits.padLeft '0' 2 (Digits.write 10 e.natAbs)

/-- Digits with a point or an exponent. -/
def layout (s : Scientific) : List Char :=
  if s.exponent < -4 ∨ 16 ≤ s.exponent then
    s.digits.take 1 ++ (if s.digits.length ≤ 1 then [] else '.' :: s.digits.drop 1) ++
      exponentChars s.exponent
  else if s.exponent < 0 then
    '0' :: '.' :: List.replicate (-s.exponent - 1).toNat '0' ++ s.digits
  else
    let n := s.exponent.toNat + 1
    s.digits.take n ++ List.replicate (n - s.digits.length) '0' ++ '.' :: orZero (s.digits.drop n)

/-- A minus sign for a negative double. -/
def sign (negative : Bool) : List Char := if negative then ['-'] else []

/-- The characters of a double. -/
def chars : Binary64 → List Char
  | .nan => "nan".toList
  | .infinite negative => sign negative ++ "inf".toList
  | .finite negative m e =>
    sign negative ++ if m = 0 then "0.0".toList else layout (digits (.finite negative m e) m e)

/-- The text of a double. -/
def text (x : Binary64) : String := String.ofList (chars x)

end Shortest

end BoardWiring
