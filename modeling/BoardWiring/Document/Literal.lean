import BoardWiring.Document.Form
import BoardWiring.Text.Blank
import BoardWiring.Text.DecimalDigit
import BoardWiring.Value.Basic

/-!
# Values of scalars

A scalar of a type is read as a value of that type.  A type that is written out may be given to
a scalar that has another form; then more forms are read than plain scalars have, or none.

* `Literal.value` is the value of a scalar.
-/

namespace BoardWiring

namespace Document

namespace Literal

/-- A text without low lines. -/
def withoutLines (cs : List Char) : List Char := cs.filter (· != '_')

/-- A sign and what follows it. -/
def sign : List Char → Bool × List Char
  | '-' :: cs => (true, cs)
  | '+' :: cs => (false, cs)
  | cs => (false, cs)

/-- White space around a number: any but the four separators of ASCII. -/
def isAround (c : Char) : Bool := Text.isBlank c && !decide (0x1c ≤ c.toNat ∧ c.toNat ≤ 0x1f)

/-- A number without the white space around it. -/
def trim (cs : List Char) : List Char :=
  ((cs.dropWhile isAround).reverse.dropWhile isAround).reverse

/-- The value of a digit in a base; letters are those of ASCII. -/
def digit? (base : Nat) (c : Char) : Option Nat :=
  match (Text.digitValue? c).or (Digits.hexValue? c) with
  | some d => if d < base then some d else none
  | none => none

/-- The mark that may stand before the digits of a base. -/
def baseMark (base : Nat) : List Char :=
  if base = 2 then ['b', 'B'] else if base = 8 then ['o', 'O']
  else if base = 16 then ['x', 'X'] else []

/-- Digits without the mark of their base, a zero of any script and a letter. -/
def withoutMark (base : Nat) (cs : List Char) : List Char :=
  match cs with
  | z :: m :: ds => if Text.digitValue? z = some 0 ∧ m ∈ baseMark base then ds else cs
  | _ => cs

/-- An integer written in a base, perhaps with a sign and white space around it.  Decimal numbers
have a greatest length. -/
def int? (base : Nat) (cs : List Char) : Option Int :=
  let (negative, cs) := sign (trim cs)
  let cs := withoutMark base cs
  match cs.mapM (digit? base) with
  | some ds =>
    if ds.isEmpty || (base == 10 && decide (Digits.limit < ds.length)) then none
    else
      let n : Int := Digits.value base ds
      some (if negative then -n else n)
  | none => none

/-- An integer, or the fault. -/
def asInt (base : Nat) (cs : List Char) : Except ScalarFault Int :=
  match int? base cs with
  | some i => .ok i
  | none => .error .notInt

/-- Numbers written in sixtieths, the last one first. -/
def sixtieths (ns : List Int) : Int := ns.foldr (fun n m => n + 60 * m) 0

/-- The value of an integer behind its sign. -/
def magnitude (cs : List Char) : Except ScalarFault Int :=
  match cs with
  | ['0'] => .ok 0
  | '0' :: 'b' :: ds => asInt 2 ds
  | '0' :: 'x' :: ds => asInt 16 ds
  | '0' :: _ => asInt 8 cs
  | [] => .error .emptyInt
  | _ =>
    if ':' ∈ cs then do
      let ns ← (Text.pieces (· == ':') cs).mapM (asInt 10)
      pure (sixtieths ns.reverse)
    else asInt 10 cs

/-- The value of an integer. -/
def int (cs : List Char) : Except ScalarFault Int := do
  let (negative, cs) := sign (withoutLines cs)
  let i ← magnitude cs
  pure (if negative then -i else i)

/-! ### Doubles -/

/-- A number with a point or an exponent. -/
def decimal? (negative : Bool) (cs : List Char) : Option Binary64 :=
  let isDigit (c : Char) : Bool := Text.isDecimalDigit c
  let whole := cs.takeWhile isDigit
  let rest := cs.dropWhile isDigit
  let hasPoint := rest.head? == some '.'
  let fraction := if hasPoint then (rest.drop 1).takeWhile isDigit else []
  let rest := if hasPoint then (rest.drop 1).dropWhile isDigit else rest
  let digits := (whole ++ fraction).filterMap Text.digitValue?
  let m := Digits.value 10 digits
  if digits.isEmpty then none
  else
    match rest with
    | [] => some (.ofDecimal negative m (-(fraction.length : Int)))
    | e :: ds =>
      let (below, ds) := sign ds
      if e = 'e' ∧ !ds.isEmpty then
        (ds.mapM Text.digitValue?).map fun ns =>
          let n : Int := Digits.value 10 ns
          .ofDecimal negative m ((if below then -n else n) - fraction.length)
      else none

/-- A double, perhaps with a sign and white space around it.  Letters are in lower case. -/
def double? (cs : List Char) : Option Binary64 :=
  let (negative, cs) := sign (trim cs)
  if cs = "inf".toList ∨ cs = "infinity".toList then some (.infinite negative)
  else if cs = "nan".toList then some .nan
  else decimal? negative cs

/-- A double, or the fault. -/
def asDouble (cs : List Char) : Except ScalarFault Binary64 :=
  match double? cs with
  | some x => .ok x
  | none => .error .notFloat

/-- Adds numbers written in sixtieths, the last one first; `unit` is what the first of them
stands for. -/
def addSixtieths (unit : Nat) (sum : Binary64) : List Binary64 → Except ScalarFault Binary64
  | [] => .ok sum
  | x :: xs =>
    match Binary64.ofInt unit with
    | .infinite _ => .error .hugeFloat
    | u => addSixtieths (unit * 60) (sum.add (x.mul u)) xs

/-- The word for no number. -/
def notNumber : List Char := ".nan".toList

/-- The value of a double behind its sign. -/
def doubleMagnitude (cs : List Char) : Except ScalarFault Binary64 :=
  if cs = ".inf".toList then .ok (.infinite false)
  else if cs = notNumber then .ok .nan
  else if ':' ∈ cs then do
    let xs ← (Text.pieces (· == ':') cs).mapM asDouble
    addSixtieths 1 (.zero false) xs.reverse
  else asDouble cs

/-- A double as it is read: in lower case and without low lines. -/
def plainDouble (cs : List Char) : List Char := (withoutLines cs).map Char.toLower

/-- The text is the word for no number, perhaps with a sign. -/
def isNotNumber (cs : List Char) : Bool := (sign (plainDouble cs)).2 == notNumber

/-- The value of a double. -/
def double (cs : List Char) : Except ScalarFault Binary64 := do
  let cs := plainDouble cs
  let (negative, cs') := sign cs
  if cs.isEmpty then .error .emptyInt
  else
    let x ← doubleMagnitude cs'
    pure (if negative then x.opposite else x)

/-! ### Other types -/

/-- The truth values by their words. -/
def truth : List (String × Bool) :=
  [("yes", true), ("no", false), ("true", true), ("false", false), ("on", true), ("off", false)]

/-- A truth value. -/
def bool (cs : List Char) : Except ScalarFault Bool :=
  match truth.lookup (String.ofList (cs.map Char.toLower)) with
  | some b => .ok b
  | none => .error .notBool

/-- The number of decimal digits. -/
def number (ds : List Char) : Nat := Digits.value 10 (ds.map fun d => d.toNat - 48)

/-- Microseconds of the digits behind a point; further digits do not count. -/
def micros (ds : List Char) : Nat := number (ds.take 6) * Nat.pow 10 (6 - (ds.take 6).length)

/-- Seconds of an offset. -/
def offset : Option Char × List Char × List Char → Int
  | (s, hours, minutes) =>
    let n : Int := (number hours * 3600 + number minutes * 60 : Nat)
    if s = some '-' then -n else n

/-- An offset that is less than a day. -/
def isOffset (seconds : Int) : Bool := decide (seconds.natAbs < 86400)

/-- A date or a moment. -/
def timestamp (cs : List Char) : Except ScalarFault Value :=
  match Form.timestamp? (Form.body cs) with
  | none => .error .notTimestamp
  | some d =>
    let date : Date := ⟨number d.year, number d.month, number d.day⟩
    match d.time with
    | none => if date.valid then .ok (.date date) else .error .noSuchDate
    | some t =>
      let m : Moment :=
        ⟨date, number t.hour, number t.minute, number t.second, micros t.fraction,
          t.zone.map offset⟩
      if m.valid && m.offset.all isOffset then .ok (.moment m) else .error .noSuchDate

/-- The value of a digit in base 64. -/
def sextet? (c : Char) : Option Nat :=
  if 'A' ≤ c ∧ c ≤ 'Z' then some (c.toNat - 65)
  else if 'a' ≤ c ∧ c ≤ 'z' then some (c.toNat - 71)
  else if '0' ≤ c ∧ c ≤ '9' then some (c.toNat + 4)
  else if c = '+' then some 62
  else if c = '/' then some 63
  else none

/-- Bytes of digits in base 64.  `place` is the number of digits since the last whole group,
`left` the bits left over, and `pads` the number of padding signs just before.  Other characters
do not count; a full padding ends the text. -/
def bytesFrom (place left pads : Nat) : List Char → Option (List UInt8)
  | [] => if place = 0 then some [] else none
  | c :: cs =>
    if c = '=' then
      if 2 ≤ place then
        if 4 ≤ place + pads + 1 then some [] else bytesFrom place left (pads + 1) cs
      else bytesFrom place left pads cs
    else
      match sextet? c with
      | none => bytesFrom place left pads cs
      | some d =>
        if place = 0 then bytesFrom 1 d 0 cs
        else if place = 1 then
          (bytesFrom 2 (d % 16) 0 cs).map (UInt8.ofNat (left * 4 + d / 16) :: ·)
        else if place = 2 then
          (bytesFrom 3 (d % 4) 0 cs).map (UInt8.ofNat (left * 16 + d / 4) :: ·)
        else (bytesFrom 0 0 0 cs).map (UInt8.ofNat (left * 64 + d) :: ·)

/-- Bytes written in base 64. -/
def binary (cs : List Char) : Except LoadFault (List UInt8) :=
  if cs.all fun c => decide (c.toNat < 128) then
    match bytesFrom 0 0 0 cs with
    | some bs => .ok bs
    | none => .error notDocument
  else .error notDocument

/-- A fault of a scalar as one of the document. -/
def orFail {α : Type} : Except ScalarFault α → Except LoadFault α
  | .ok a => .ok a
  | .error f => .error (.unbuilt f)

/-- The value of a scalar of a type whose text is no string. -/
def tornValue (t : TornText) : Tag → Except LoadFault Value
  | .null => .ok .null
  | .bool => .error (.unbuilt .notBool)
  | .int => .error (.unbuilt .notInt)
  | .float => .error (.unbuilt .notFloat)
  | .timestamp => .error (.unbuilt .notTimestamp)
  | .text => .ok (.torn t)
  | _ => .error notDocument

/-- The value of a scalar of a type whose text is a string. -/
def wholeValue (text : String) (tag : Tag) : Except LoadFault Value :=
  let cs := text.toList
  match tag with
  | .null => .ok .null
  | .bool => orFail (bool cs) |>.map Value.bool
  | .int => orFail (int cs) |>.map Value.int
  | .float => orFail (double cs) |>.map Value.float
  | .binary => binary cs |>.map Value.bytes
  | .timestamp => orFail (timestamp cs)
  | .text => .ok (.text text)
  | _ => .error notDocument

/-- The value of a scalar of a type. -/
def value (tag : Tag) (text : LooseText) : Except LoadFault Value :=
  match text.value with
  | .text s => wholeValue s tag
  | .torn t => tornValue t tag
  | _ => .error notDocument

end Literal

end Document

end BoardWiring
