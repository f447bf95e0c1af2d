import BoardWiring.Text.Digits
import BoardWiring.Text.Loose
import BoardWiring.Text.Printable

/-!
# Quoted texts

A text is shown between quotes so that it stays on one line and can be told from its
surroundings.  Single quotes are used, unless the text holds a single quote and no double quote.
The quote in use, the backslash and every character that is not printable are escaped.

* `Quoted.text` is the quoted form of a string, `Quoted.bytes` that of a byte sequence;
* `Quoted.loose` is the quoted form of any text, in which the halves of pairs stand by number;
* `Quoted.mark_eq_iff` says when double quotes are used.
-/

namespace BoardWiring

namespace Quoted

/-- The quote put around a text. -/
def mark (cs : List Char) : Char := if '\'' ∈ cs ∧ '"' ∉ cs then '"' else '\''

/-- The escape of a code point by its number, in the shortest of the three widths. -/
def numeric (n : Nat) : List Char :=
  if n < 0x100 then '\\' :: 'x' :: Digits.hexFixed 2 n
  else if n < 0x10000 then '\\' :: 'u' :: Digits.hexFixed 4 n
  else '\\' :: 'U' :: Digits.hexFixed 8 n

/-- How one character stands between quotes `q`. -/
def escape (q c : Char) : List Char :=
  if c = q ∨ c = '\\' then ['\\', c]
  else if c = '\t' then ['\\', 't']
  else if c = '\n' then ['\\', 'n']
  else if c = '\r' then ['\\', 'r']
  else if Text.isPrintable c then [c]
  else numeric c.toNat

/-- The quoted form of a list of characters. -/
def chars (cs : List Char) : List Char :=
  let q := mark cs
  q :: cs.flatMap (escape q) ++ [q]

/-- The quoted form of a string. -/
def text (s : String) : String := String.ofList (chars s.toList)

/-- How one byte stands between quotes `q`: printable ASCII as itself, the others by number. -/
def escapeByte (q : Char) (b : UInt8) : List Char :=
  let c := Char.ofNat b.toNat
  if b.toNat < 0x7f then escape q c else numeric b.toNat

/-- The quoted form of a byte sequence. -/
def bytes (bs : List UInt8) : String :=
  let q := mark (bs.map fun b => Char.ofNat b.toNat)
  String.ofList ('b' :: q :: bs.flatMap (escapeByte q) ++ [q])

/-- How one code point stands between quotes `q`. -/
def escapePoint (q : Char) : CodePoint → List Char
  | .char c => escape q c
  | .half n => numeric (CodePoint.half n).code

/-- The quoted form of a text. -/
def loose (t : LooseText) : String :=
  let q := mark t.characters
  String.ofList (q :: t.points.flatMap (escapePoint q) ++ [q])

/-- A code point on its own: a character as itself, a half by its number. -/
def plain : CodePoint → List Char
  | .char c => [c]
  | .half n => numeric (CodePoint.half n).code

/-- A text whose halves of pairs are replaced by their numbers. -/
def escaped (t : LooseText) : String := String.ofList (t.points.flatMap plain)

@[simp] theorem loose_ofString (s : String) : loose (.ofString s) = text s := by
  simp [loose, text, chars, List.flatMap_map, escapePoint]

@[simp] theorem escaped_ofString (s : String) : escaped (.ofString s) = s := by
  simp [escaped, List.flatMap_map, plain]

theorem mark_eq_iff {cs : List Char} : mark cs = '"' ↔ '\'' ∈ cs ∧ '"' ∉ cs := by
  unfold mark
  split <;> simp_all

end Quoted

end BoardWiring
