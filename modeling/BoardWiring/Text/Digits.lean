/-!
# Numbers in positional notation

Natural numbers and integers are written in a base from two to sixteen, most significant digit
first and without leading zeros, and digit lists are read back to their value.

* `Digits.write` is the list of digits of a number;
* `Digits.value` is the number a list of digit values stands for;
* `Digits.isWritable` says which integers are short enough to be written as decimal texts;
* `Digits.decimal` and `Digits.signed` are the decimal texts of numbers, `Digits.hexByte` is the
  hexadecimal text of a byte, filled up to two characters.
-/

namespace BoardWiring

namespace Digits

/-- The character of a digit value below sixteen, letters in lower case. -/
def digit (d : Nat) : Char := Char.ofNat (if d < 10 then 48 + d else 87 + d)

/-- The digits of `n` in base `b`, without leading zeros. -/
def write (b n : Nat) : List Char :=
  if _h : 1 < b ∧ b ≤ n then write b (n / b) ++ [digit (n % b)] else [digit n]
termination_by n
decreasing_by exact Nat.div_lt_self (by omega) (by omega)

/-- The number whose digit values in base `b`, most significant first, are `ds`. -/
def value (b : Nat) (ds : List Nat) : Nat := ds.foldl (fun n d => n * b + d) 0

/-- The value of a hexadecimal digit of either case. -/
def hexValue? (c : Char) : Option Nat :=
  if '0' ≤ c ∧ c ≤ '9' then some (c.toNat - 48)
  else if 'a' ≤ c ∧ c ≤ 'f' then some (c.toNat - 87)
  else if 'A' ≤ c ∧ c ≤ 'F' then some (c.toNat - 55)
  else none

/-- `cs` with `fill` put in front until it has `width` characters. -/
def padLeft (fill : Char) (width : Nat) (cs : List Char) : List Char :=
  List.replicate (width - cs.length) fill ++ cs

/-- The greatest number of digits with which a decimal number is read or written. -/
def limit : Nat := 4300

-- Irreducible, because the bound is too large to be evaluated in the middle of a proof.
/-- An integer that has few enough digits to be written. -/
@[irreducible] def isWritable (i : Int) : Bool := decide (i.natAbs < Nat.pow 10 limit)

/-! ### Texts -/

/-- The decimal text of a natural number. -/
def decimal (n : Nat) : String := String.ofList (write 10 n)

/-- The digits of an integer behind its minus sign, if it has one. -/
def signedIn (b : Nat) (i : Int) : List Char :=
  if i < 0 then '-' :: write b i.natAbs else write b i.natAbs

/-- The decimal text of an integer. -/
def signed (i : Int) : String := String.ofList (signedIn 10 i)

/-- Hexadecimal characters of an integer, filled with zeros behind the sign up to two
characters in all. -/
def hexByteChars (i : Int) : List Char :=
  if i < 0 then '-' :: padLeft '0' 1 (write 16 i.natAbs) else padLeft '0' 2 (write 16 i.natAbs)

/-- The lower-case hexadecimal text of an integer, at least two characters long. -/
def hexByte (i : Int) : String := String.ofList (hexByteChars i)

/-- The upper-case hexadecimal text of an integer, at least two characters long. -/
def hexByteUpper (i : Int) : String := String.ofList ((hexByteChars i).map Char.toUpper)

/-- Exactly `width` lower-case hexadecimal digits of `n`, which is below `16 ^ width`. -/
def hexFixed (width n : Nat) : List Char := padLeft '0' width (write 16 n)

end Digits

end BoardWiring
