import BoardWiring.Family
import BoardWiring.Pin.Basic
import BoardWiring.Text.DecimalDigit

/-!
# Spellings of pins

The names of a family's own pins, and the form of expander pins.  A text may end in one line
feed, which does not count, and a digit of a number may be a decimal digit of any script where
that is said below.

* `Grammar.number?` is the number of a pin of a family, if the text is the name of one;
* `Grammar.expander?` are the parts of a text of the form of an expander pin.
-/

namespace BoardWiring

namespace Grammar

/-- A text without one line feed at its end. -/
def body (cs : List Char) : List Char := if cs.getLast? = some '\n' then cs.dropLast else cs

/-- A number below one hundred without leading zeros, whose second digit may be of any
script. -/
def shortNumber? : List Char → Option Nat
  | [c] => if '0' ≤ c ∧ c ≤ '9' then some (c.toNat - 48) else none
  | [c, d] =>
    if '1' ≤ c ∧ c ≤ '9' then (Text.digitValue? d).map (10 * (c.toNat - 48) + ·) else none
  | _ => none

/-- A number of exactly two digits of any script. -/
def twoDigits? : List Char → Option Nat
  | [c, d] => do
    let m ← Text.digitValue? c
    let n ← Text.digitValue? d
    some (10 * m + n)
  | _ => none

/-- The number of a pin of a family with a name. -/
def nameNumber? : Family → List Char → Option Nat
  | .stm32, 'P' :: group :: cs => if 'A' ≤ group ∧ group ≤ 'K' then shortNumber? cs else none
  | .nrf52, 'P' :: group :: '_' :: cs => if group = '0' ∨ group = '1' then twoDigits? cs else none
  | .rp2040, 'P' :: 'I' :: 'N' :: '_' :: cs => shortNumber? cs
  | .esp32, 'g' :: 'p' :: 'i' :: 'o' :: cs => shortNumber? cs
  | _, _ => none

/-- The number of a pin of a family with a spelling. -/
def number? (family : Family) (cs : List Char) : Option Nat := nameNumber? family (body cs)

/-! ### Expander pins -/

/-- The text is meant as an expander pin. -/
def isExpander (cs : List Char) : Bool := "MI".toList.isPrefixOf cs

/-- The parts of a text of the form of an expander pin. -/
structure ExpanderParts where
  /-- Value of the two hexadecimal digits. -/
  address : Nat
  /-- Letter for the bank. -/
  letter : Char
  /-- Values of the digits of the index. -/
  index : List Nat
  deriving DecidableEq

/-- A letter of ASCII. -/
def isLetter (c : Char) : Bool := c.isAlpha

/-- A text without one low line at its start. -/
def afterLine : List Char → List Char
  | '_' :: cs => cs
  | cs => cs

/-- The parts of an expander pin: two hexadecimal digits, a low line, a letter, perhaps another
low line, and at least one digit of any script. -/
def expander? (cs : List Char) : Option ExpanderParts :=
  match body cs with
  | 'M' :: 'I' :: h :: l :: '_' :: letter :: rest => do
    let high ← Digits.hexValue? h
    let low ← Digits.hexValue? l
    let index ← (afterLine rest).mapM Text.digitValue?
    if isLetter letter && !index.isEmpty then some ⟨16 * high + low, letter, index⟩ else none
  | _ => none

end Grammar

end BoardWiring
