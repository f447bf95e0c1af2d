import BoardWiring.Text.JsonString
import BoardWiring.Value.Text

/-!
# JSON texts of values

Values are written as one line of ASCII with a space behind each comma and colon, and read from
any JSON text.  A number with a point or an exponent is a double, any other an integer, so `1`
and `1.0` are told apart; entries keep their order, and the last of equal names counts.

* `Json.text` is the written form, `Json.read?` reads a whole text.
-/

namespace BoardWiring

namespace Json

/-! ### Writing -/

/-- A double; those that are no numbers have names. -/
def double : Binary64 → String
  | .nan => "NaN"
  | .infinite true => "-Infinity"
  | .infinite false => "Infinity"
  | x => Shortest.text x

/-- The name of an entry. -/
def name : Value → String
  | .null => "null"
  | .bool true => "true"
  | .bool false => "false"
  | .float x => double x
  | v => v.shown

/-- The literal for the name of an entry. -/
def nameLiteral : Value → String
  | .torn t => JsonString.looseLiteral t.text
  | k => JsonString.asciiLiteral (name k)

mutual

/-- The JSON text of a value.  Kinds unknown to JSON are written as their texts. -/
def text : Value → String
  | .null => "null"
  | .bool true => "true"
  | .bool false => "false"
  | .int i => Digits.signed i
  | .float x => double x
  | .text s => JsonString.asciiLiteral s
  | .torn t => JsonString.looseLiteral t.text
  | .list xs => "[" ++ String.intercalate ", " (texts xs) ++ "]"
  | .pair a b => "[" ++ text a ++ ", " ++ text b ++ "]"
  | .mapping es => "\x7b" ++ String.intercalate ", " (entries es) ++ "\x7d"
  | v => JsonString.asciiLiteral v.shown

/-- The JSON texts of the items of a list. -/
def texts : List Value → List String
  | [] => []
  | x :: xs => text x :: texts xs

/-- The JSON texts of the entries of a mapping. -/
def entries : List (Value × Value) → List String
  | [] => []
  | (k, x) :: es => (nameLiteral k ++ ": " ++ text x) :: entries es

end

@[simp] theorem text_value (t : LooseText) : text t.value = JsonString.looseLiteral t := by
  unfold LooseText.value
  split
  · rename_i s hwhole
    rw [LooseText.whole?_eq_some_iff.1 hwhole, JsonString.looseLiteral_ofString]
    rfl
  · rfl

@[simp] theorem nameLiteral_value (t : LooseText) :
    nameLiteral t.value = JsonString.looseLiteral t := by
  unfold LooseText.value
  split
  · rename_i s hwhole
    rw [LooseText.whole?_eq_some_iff.1 hwhole, JsonString.looseLiteral_ofString]
    rfl
  · rfl

/-! ### Reading -/

/-- White space between the parts of a JSON text. -/
def isSpace (c : Char) : Bool := c == ' ' || c == '\t' || c == '\n' || c == '\r'

/-- What follows white space. -/
def skip (cs : List Char) : List Char := cs.dropWhile isSpace

/-- The value of decimal digits of ASCII. -/
def digitsValue (ds : List Char) : Nat := Digits.value 10 (ds.map fun c => c.toNat - 48)

/-- The exponent of a number and what follows it; none if there is no `e`. -/
def readExponent? (cs : List Char) : Option (Int × List Char) :=
  match cs with
  | e :: rest =>
    if e = 'e' ∨ e = 'E' then
      let unsigned := match rest with
        | '-' :: r => r
        | '+' :: r => r
        | r => r
      let ds := unsigned.takeWhile Char.isDigit
      if ds.isEmpty then none
      else
        let n : Int := digitsValue ds
        some (if rest.head? = some '-' then -n else n, unsigned.dropWhile Char.isDigit)
    else none
  | [] => none

/-- The digits behind a point and what follows them; none if there is no point. -/
def readFraction? (cs : List Char) : Option (List Char × List Char) :=
  match cs with
  | '.' :: rest =>
    let ds := rest.takeWhile Char.isDigit
    if ds.isEmpty then none else some (ds, rest.dropWhile Char.isDigit)
  | _ => none

/-- A number without its sign, and what follows it. -/
def readUnsigned? (negative : Bool) (cs : List Char) : Option (Value × List Char) :=
  let whole := cs.takeWhile Char.isDigit
  let rest := cs.dropWhile Char.isDigit
  if whole.isEmpty ∨ (whole.head? = some '0' ∧ whole.length ≠ 1) then none
  else
    let afterFraction := ((readFraction? rest).map Prod.snd).getD rest
    let fraction := ((readFraction? rest).map Prod.fst).getD []
    let afterExponent := ((readExponent? afterFraction).map Prod.snd).getD afterFraction
    let exponent := ((readExponent? afterFraction).map Prod.fst).getD 0
    if afterExponent.length = rest.length then
      let n : Int := digitsValue whole
      some (.int (if negative then -n else n), rest)
    else
      let m := digitsValue (whole ++ fraction)
      some (.float (.ofDecimal negative m (exponent - fraction.length)), afterExponent)

/-- A number and what follows it. -/
def readNumber? : List Char → Option (Value × List Char)
  | '-' :: cs => readUnsigned? true cs
  | cs => readUnsigned? false cs

/-- The values that are words. -/
def words : List (List Char × Value) :=
  [("null".toList, .null), ("true".toList, .bool true), ("false".toList, .bool false),
   ("NaN".toList, .float .nan), ("Infinity".toList, .float (.infinite false)),
   ("-Infinity".toList, .float (.infinite true))]

/-- A word and what follows it. -/
def readWord? (cs : List Char) : Option (Value × List Char) :=
  words.findSome? fun w => if w.1.isPrefixOf cs then some (w.2, cs.drop w.1.length) else none

mutual

/-- A value and what follows it, with at most `fuel` parts inside one another and beside one
another. -/
def readWithin : Nat → List Char → Option (Value × List Char)
  | 0, _ => none
  | fuel + 1, cs =>
    match skip cs with
    | '"' :: rest => (JsonString.read? rest).map fun r => (r.1.value, r.2)
    | '[' :: rest =>
      match skip rest with
      | ']' :: rest => some (.list [], rest)
      | _ => (readItems fuel rest).map fun r => (.list r.1, r.2)
    | '{' :: rest =>
      match skip rest with
      | '}' :: rest => some (.mapping [], rest)
      | _ => (readEntries fuel rest []).map fun r => (.mapping r.1, r.2)
    | cs => (readWord? cs).or (readNumber? cs)

/-- The items of a list up to its closing bracket, and what follows that. -/
def readItems : Nat → List Char → Option (List Value × List Char)
  | 0, _ => none
  | fuel + 1, cs => do
    let (x, rest) ← readWithin fuel cs
    match skip rest with
    | ',' :: rest =>
      let (xs, rest) ← readItems fuel rest
      some (x :: xs, rest)
    | ']' :: rest => some ([x], rest)
    | _ => none

/-- The entries of a mapping up to its closing bracket, put behind `before`, and what follows
the bracket. -/
def readEntries : Nat → List Char → List (Value × Value) →
    Option (List (Value × Value) × List Char)
  | 0, _, _ => none
  | fuel + 1, cs, before =>
    match skip cs with
    | '"' :: rest => do
      let (k, rest) ← JsonString.read? rest
      match skip rest with
      | ':' :: rest =>
        let (x, rest) ← readWithin fuel rest
        let es := Value.enter k.value x before
        match skip rest with
        | ',' :: rest => readEntries fuel rest es
        | '}' :: rest => some (es, rest)
        | _ => none
      | _ => none
    | _ => none

end

/-- The value of a whole JSON text. -/
def read? (s : String) : Option Value :=
  let cs := s.toList
  match readWithin (2 * cs.length + 2) cs with
  | some (v, rest) => if (skip rest).isEmpty then some v else none
  | none => none

end Json

end BoardWiring
