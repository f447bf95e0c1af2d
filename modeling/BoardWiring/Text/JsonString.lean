import BoardWiring.Text.Digits
import BoardWiring.Text.Loose

/-!
# String literals of JSON

A literal stands between double quotes.  The quote, the backslash and the control characters
below the space are escaped; all other characters are written as themselves, or, in the ASCII
form, by the numbers of their UTF-16 units.  A half of a surrogate pair is written by its number.

* `JsonString.literal` keeps printable characters of all scripts, `JsonString.asciiLiteral`
  writes ASCII only, and `JsonString.looseLiteral` does so for any text;
* `JsonString.read?` reads the inside of a literal up to its closing quote.
-/

namespace BoardWiring

namespace JsonString

/-- The escape `\uXXXX` of one UTF-16 unit. -/
def unitEscape (n : Nat) : List Char := '\\' :: 'u' :: Digits.hexFixed 4 n

/-- The UTF-16 units of a code point: itself, or a surrogate pair beyond 0xFFFF. -/
def units (n : Nat) : List Nat :=
  if n < 0x10000 then [n]
  else [0xd800 + (n - 0x10000) / 0x400, 0xdc00 + (n - 0x10000) % 0x400]

/-- The two-character escape of a character, if it has one. -/
def shortEscape? (c : Char) : Option Char :=
  if c = '"' then some '"'
  else if c = '\\' then some '\\'
  else if c = '\n' then some 'n'
  else if c = '\r' then some 'r'
  else if c = '\t' then some 't'
  else if c = '\x0c' then some 'f'
  else if c = '\x08' then some 'b'
  else none

/-- One character of a literal that keeps every script. -/
def escape (c : Char) : List Char :=
  match shortEscape? c with
  | some e => ['\\', e]
  | none => if c.toNat < 0x20 then unitEscape c.toNat else [c]

/-- One character of a literal in ASCII. -/
def escapeAscii (c : Char) : List Char :=
  match shortEscape? c with
  | some e => ['\\', e]
  | none =>
    if 0x20 ≤ c.toNat ∧ c.toNat < 0x7f then [c] else (units c.toNat).flatMap unitEscape

/-- The literal of a list of characters, every script kept. -/
def literalChars (cs : List Char) : List Char := '"' :: cs.flatMap escape ++ ['"']

/-- The literal of a text, every script kept. -/
def literal (s : String) : String := String.ofList (literalChars s.toList)

/-- The literal of a list of characters in ASCII. -/
def asciiLiteralChars (cs : List Char) : List Char := '"' :: cs.flatMap escapeAscii ++ ['"']

/-- The literal of a text in ASCII. -/
def asciiLiteral (s : String) : String := String.ofList (asciiLiteralChars s.toList)

/-- One code point of a literal in ASCII. -/
def escapePoint : CodePoint → List Char
  | .char c => escapeAscii c
  | .half n => unitEscape (CodePoint.half n).code

/-- The literal of a list of code points in ASCII. -/
def looseLiteralChars (ps : List CodePoint) : List Char := '"' :: ps.flatMap escapePoint ++ ['"']

/-- The literal of any text in ASCII. -/
def looseLiteral (t : LooseText) : String := String.ofList (looseLiteralChars t.points)

@[simp] theorem looseLiteral_ofString (s : String) :
    looseLiteral (.ofString s) = asciiLiteral s := by
  simp [looseLiteral, asciiLiteral, looseLiteralChars, asciiLiteralChars, List.flatMap_map,
    escapePoint]

/-! ### Reading -/

/-- Four hexadecimal digits and what follows them. -/
def hex4? : List Char → Option (Nat × List Char)
  | a :: b :: c :: d :: rest => do
    let va ← Digits.hexValue? a
    let vb ← Digits.hexValue? b
    let vc ← Digits.hexValue? c
    let vd ← Digits.hexValue? d
    some (Digits.value 16 [va, vb, vc, vd], rest)
  | _ => none

/-- The character that a two-character escape stands for. -/
def unescape? (c : Char) : Option Char :=
  if c = '"' ∨ c = '\\' ∨ c = '/' then some c
  else if c = 'n' then some '\n'
  else if c = 'r' then some '\r'
  else if c = 't' then some '\t'
  else if c = 'f' then some '\x0c'
  else if c = 'b' then some '\x08'
  else none

/-- A high surrogate. -/
def isHigh (n : Nat) : Bool := decide (0xd800 ≤ n) && decide (n < 0xdc00)

/-- A low surrogate. -/
def isLow (n : Nat) : Bool := decide (0xdc00 ≤ n) && decide (n < 0xe000)

/-- The low half that is written directly here, and what follows it. -/
def lowHalf? : List Char → Option (Nat × List Char)
  | '\\' :: 'u' :: rest => (hex4? rest).filter fun r => isLow r.1
  | _ => none

/-- The character of a pair of surrogates. -/
def ofPair (high low : Nat) : Char :=
  Char.ofNat (0x10000 + (high - 0xd800) * 0x400 + (low - 0xdc00))

/-- The code point of a number that has been read, and what follows it: two halves that make a pair
stand for one character. -/
def readUnit (n : Nat) (rest : List Char) : CodePoint × List Char :=
  match if isHigh n then lowHalf? rest else none with
  | some (m, rest) => (.char (ofPair n m), rest)
  | none => (.ofCode n, rest)

/-- The code point at the head of the inside of a literal, and what follows it. -/
def readPoint? : List Char → Option (CodePoint × List Char)
  | '\\' :: 'u' :: rest => (hex4? rest).map fun r => readUnit r.1 r.2
  | '\\' :: e :: rest => (unescape? e).map fun c => (.char c, rest)
  | '\\' :: [] => none
  | c :: rest => some (.char c, rest)
  | [] => none

/-- The inside of a literal up to its closing quote, with `fuel` code points at most, and what
follows the quote. -/
def readWithin : Nat → List Char → Option (List CodePoint × List Char)
  | 0, _ => none
  | _ + 1, '"' :: rest => some ([], rest)
  | fuel + 1, cs =>
    match readPoint? cs with
    | none => none
    | some (p, rest) => (readWithin fuel rest).map fun r => (p :: r.1, r.2)

/-- The text of a literal whose opening quote has been read, and what follows the literal. -/
def read? (cs : List Char) : Option (LooseText × List Char) :=
  (readWithin (cs.length + 1) cs).map fun r => (⟨r.1⟩, r.2)

end JsonString

end BoardWiring
