import BoardWiring.Number.Rounding
import BoardWiring.Text.Digits

/-!
# Double-precision numbers

A finite double is a sign, a significand below 2 ^ 53 and a power of two not below 2 ^ -1074; a
number that is not a double is rounded to the nearest one, ties to the even significand.  All of
it is exact arithmetic on natural numbers.

* `Binary64.ofRatio` rounds a quotient, `Binary64.ofDecimal` a decimal number;
* `Binary64.add`, `Binary64.mul` and `Binary64.opposite` are the arithmetic on doubles;
* `Binary64.ratio?` is the exact value of a finite double.
-/

namespace BoardWiring

/-- A double: a signed multiple of a power of two, an infinity, or no number. -/
inductive Binary64 where
  | finite (negative : Bool) (significand : Nat) (exponent : Int)
  | infinite (negative : Bool)
  | nan
  deriving DecidableEq, Inhabited

namespace Binary64

/-- The least exponent of a double. -/
def minExponent : Int := -1074

/-- The greatest exponent of a double. -/
def maxExponent : Int := 971

/-- Zero with a sign. -/
def zero (negative : Bool) : Binary64 := .finite negative 0 minExponent

/-- The quotient `num / den` divided by `2 ^ e`. -/
def scaled (num den : Nat) (e : Int) : Nat × Nat :=
  if 0 ≤ e then (num, den * Nat.pow 2 e.toNat) else (num * Nat.pow 2 (-e).toNat, den)

/-- The exponent that brings a positive quotient between 2 ^ 52 and 2 ^ 53. -/
def unitExponent (num den : Nat) : Int :=
  let e : Int := (Nat.log2 num : Int) - (Nat.log2 den : Int) - 53
  let s := scaled num den e
  if s.1 < s.2 * Nat.pow 2 53 then e else e + 1

/-- A double with significand `m`, which may have been rounded up to 2 ^ 53. -/
def ofParts (negative : Bool) (m : Nat) (e : Int) : Binary64 :=
  let carried := m = Nat.pow 2 53
  let e' := if carried then e + 1 else e
  if maxExponent < e' then .infinite negative
  else .finite negative (if carried then Nat.pow 2 52 else m) e'

/-- The double nearest to `num / den`. -/
def ofRatio (negative : Bool) (num den : Nat) : Binary64 :=
  if num = 0 then zero negative
  else
    let e := max minExponent (unitExponent num den)
    let s := scaled num den e
    ofParts negative (Rounding.nearestEven s.1 s.2) e

/-- The double nearest to an integer. -/
def ofInt (i : Int) : Binary64 := ofRatio (decide (i < 0)) i.natAbs 1

/-- The double nearest to `m * 10 ^ e`.  Numbers far out of range are not computed. -/
def ofDecimal (negative : Bool) (m : Nat) (e : Int) : Binary64 :=
  let places : Int := (Digits.write 10 m).length + e
  if m = 0 ∨ places < -330 then zero negative
  else if 310 < places then .infinite negative
  else if 0 ≤ e then ofRatio negative (m * Nat.pow 10 e.toNat) 1
  else ofRatio negative m (Nat.pow 10 (-e).toNat)

/-! ### Values -/

/-- The magnitude of a finite double as a quotient. -/
def magnitude (m : Nat) (e : Int) : Nat × Nat :=
  if 0 ≤ e then (m * Nat.pow 2 e.toNat, 1) else (m, Nat.pow 2 (-e).toNat)

/-- The exact value of a finite double: numerator and denominator. -/
def ratio? : Binary64 → Option (Int × Nat)
  | .finite negative m e =>
    let r := magnitude m e
    some (if negative then -(r.1 : Int) else r.1, r.2)
  | _ => none

/-- The double is below zero or is negative zero. -/
def isNegative : Binary64 → Bool
  | .finite negative _ _ => negative
  | .infinite negative => negative
  | .nan => false

/-- The integer part of a finite double. -/
def truncated? (x : Binary64) : Option Int := x.ratio?.map fun r => r.1.tdiv r.2

/-- Two doubles stand for the same number: both zeros do, and no number never does. -/
def sameNumber (x y : Binary64) : Bool :=
  match x, y with
  | .finite s m e, .finite t n f => (m == 0 && n == 0) || (s == t && m == n && e == f)
  | .infinite s, .infinite t => s == t
  | _, _ => false

/-- A double stands for an integer. -/
def isInt (x : Binary64) (i : Int) : Bool :=
  match x.ratio? with
  | some (n, d) => n == i * d
  | none => false

/-! ### Arithmetic -/

/-- The double of the opposite sign. -/
def opposite : Binary64 → Binary64
  | .finite negative m e => .finite (!negative) m e
  | .infinite negative => .infinite (!negative)
  | .nan => .nan

/-- The double nearest to a sum. -/
def add (x y : Binary64) : Binary64 :=
  match x, y with
  | .nan, _ | _, .nan => .nan
  | .infinite s, .infinite t => if s = t then .infinite s else .nan
  | .infinite s, _ | _, .infinite s => .infinite s
  | .finite s m e, .finite t n f =>
    let a := magnitude m e
    let b := magnitude n f
    let left : Int := a.1 * b.2
    let right : Int := b.1 * a.2
    let sum : Int := (if s then -left else left) + (if t then -right else right)
    if sum = 0 then zero (s && t) else ofRatio (decide (sum < 0)) sum.natAbs (a.2 * b.2)

/-- The double nearest to a product. -/
def mul (x y : Binary64) : Binary64 :=
  match x, y with
  | .nan, _ | _, .nan => .nan
  | .infinite s, .infinite t => .infinite (s != t)
  | .infinite s, .finite t n _ | .finite t n _, .infinite s =>
    if n = 0 then .nan else .infinite (s != t)
  | .finite s m e, .finite t n f =>
    let a := magnitude m e
    let b := magnitude n f
    ofRatio (s != t) (a.1 * b.1) (a.2 * b.2)

end Binary64

end BoardWiring
