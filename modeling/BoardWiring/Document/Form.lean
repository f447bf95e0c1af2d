import BoardWiring.Document.Cursor
import BoardWiring.Text.Pieces

/-!
# Forms of plain scalars

What a scalar without quotes stands for shows in its form: a truth value, a number, a date, or
else a text.

* `Tag` are the types that a node can have, `Tag.ofPlain` is the type of a plain scalar and
  `Tag.ofAddress` that of a tag written out.
-/

namespace BoardWiring

namespace Document

/-- The type of a node. -/
inductive Tag where
  | null
  | bool
  | int
  | float
  | binary
  | timestamp
  | orderedMapping
  | pairs
  | set
  | text
  | sequence
  | mapping
  | merge
  | value
  | other
  deriving DecidableEq, Inhabited

namespace Form

/-- A text without one line feed at its end. -/
def body (cs : List Char) : List Char := if cs.getLast? = some '\n' then cs.dropLast else cs

/-- A text without its sign. -/
def unsigned : List Char → List Char
  | '-' :: cs => cs
  | '+' :: cs => cs
  | cs => cs

/-- The text begins with a sign. -/
def hasSign (cs : List Char) : Bool := (unsigned cs).length != cs.length

/-- A digit or a low line. -/
def isDigitLine (c : Char) : Bool := c.isDigit || c == '_'

/-- A digit from one to nine, then digits and low lines. -/
def isCount : List Char → Bool
  | c :: cs => c.isDigit && c != '0' && cs.all isDigitLine
  | [] => false

/-- One digit, or two of which the first is at most five. -/
def isSixtieth : List Char → Bool
  | [c] => c.isDigit
  | [c, d] => '0' ≤ c && c ≤ '5' && d.isDigit
  | _ => false

/-- The words that stand for truth values. -/
def truthWords : List String :=
  ["yes", "Yes", "YES", "no", "No", "NO", "true", "True", "TRUE", "false", "False", "FALSE",
   "on", "On", "ON", "off", "Off", "OFF"]

/-- A truth value. -/
def isBool (cs : List Char) : Bool := truthWords.any fun w => w.toList == cs

/-- The word for nothing, or its sign. -/
def isNull (cs : List Char) : Bool :=
  ["~", "null", "Null", "NULL"].any fun w => w.toList == cs

/-- An integer: binary, octal, decimal, hexadecimal, or in sixtieths. -/
def isInt (cs : List Char) : Bool :=
  match unsigned cs with
  | ['0'] => true
  | '0' :: 'b' :: ds => !ds.isEmpty && ds.all fun c => c == '0' || c == '1' || c == '_'
  | '0' :: 'x' :: ds =>
    !ds.isEmpty && ds.all fun c =>
      c.isDigit || ('a' ≤ c && c ≤ 'f') || ('A' ≤ c && c ≤ 'F') || c == '_'
  | '0' :: ds => ds.all fun c => ('0' ≤ c && c ≤ '7') || c == '_'
  | ds =>
    match Text.pieces (· == ':') ds with
    | first :: more => isCount first && more.all isSixtieth
    | [] => false

/-- An exponent with its sign, or nothing. -/
def isExponent : List Char → Bool
  | [] => true
  | e :: s :: ds => (e == 'e' || e == 'E') && (s == '-' || s == '+') && !ds.isEmpty &&
      ds.all Char.isDigit
  | _ => false

/-- A point, digits and perhaps an exponent. -/
def isFraction : List Char → Bool
  | '.' :: cs => isExponent (cs.dropWhile isDigitLine)
  | _ => false

/-- The first character is a digit. -/
def startsWithDigit (cs : List Char) : Bool := cs.head?.any Char.isDigit

/-- A number with a point. -/
def isDecimal (cs : List Char) : Bool :=
  let whole := (unsigned cs).takeWhile isDigitLine
  let rest := (unsigned cs).dropWhile isDigitLine
  if whole.isEmpty then !hasSign cs && startsWithDigit (rest.drop 1) && isFraction rest
  else startsWithDigit whole && isFraction rest

/-- Sixtieths, the last of which has a point. -/
def isSexagesimal (cs : List Char) : Bool :=
  match Text.pieces (· == ':') (unsigned cs) with
  | first :: second :: more =>
    let last := (second :: more).getLast?.getD []
    startsWithDigit first && first.all isDigitLine &&
      ((second :: more).dropLast.all isSixtieth) &&
      isSixtieth (last.takeWhile Char.isDigit) &&
      (match last.dropWhile Char.isDigit with
        | '.' :: ds => ds.all isDigitLine
        | _ => false)
  | _ => false

/-- A name of an infinity or of no number. -/
def isSpecial (cs : List Char) : Bool :=
  [".inf", ".Inf", ".INF"].any (fun w => w.toList == unsigned cs) ||
    [".nan", ".NaN", ".NAN"].any (fun w => w.toList == cs)

/-- A number that is no integer. -/
def isFloat (cs : List Char) : Bool := isDecimal cs || isSexagesimal cs || isSpecial cs

/-! ### Timestamps -/

/-- The parts of a time of day. -/
structure TimeParts where
  /-- Hour. -/
  hour : List Char
  /-- Minute. -/
  minute : List Char
  /-- Second. -/
  second : List Char
  /-- Digits behind the point. -/
  fraction : List Char
  /-- Sign, hours and minutes of the offset; universal time has no sign. -/
  zone : Option (Option Char × List Char × List Char)

/-- The parts of a date, perhaps with a time. -/
structure DateParts where
  /-- Year. -/
  year : List Char
  /-- Month. -/
  month : List Char
  /-- Day. -/
  day : List Char
  /-- Time of day. -/
  time : Option TimeParts

/-- At most two digits, of which there must be `least`, and what follows them. -/
def shortDigits? (least : Nat) (cs : List Char) : Option (List Char × List Char) :=
  let ds := (cs.take 2).takeWhile Char.isDigit
  if least ≤ ds.length then some (ds, cs.drop ds.length) else none

/-- What follows a character. -/
def after? (ch : Char) : List Char → Option (List Char)
  | c :: cs => if c = ch then some cs else none
  | [] => none

/-- An offset up to the end of the text. -/
def zone? : List Char → Option (Option Char × List Char × List Char)
  | ['Z'] => some (none, [], [])
  | s :: cs =>
    if s = '-' ∨ s = '+' then do
      let (hours, rest) ← shortDigits? 1 cs
      if rest.isEmpty then some (some s, hours, [])
      else
        let rest ← after? ':' rest
        let (minutes, rest) ← shortDigits? 2 rest
        if rest.isEmpty then some (some s, hours, minutes) else none
    else none
  | [] => none

/-- A space or a tab. -/
def isSpace (c : Char) : Bool := c == ' ' || c == '\t'

/-- A time of day up to the end of the text. -/
def time? (cs : List Char) : Option TimeParts := do
  let (hour, rest) ← shortDigits? 1 cs
  let rest ← after? ':' rest
  let (minute, rest) ← shortDigits? 2 rest
  let rest ← after? ':' rest
  let (second, rest) ← shortDigits? 2 rest
  let behind := (after? '.' rest).getD []
  let fraction := behind.takeWhile Char.isDigit
  let rest := ((after? '.' rest).map (·.dropWhile Char.isDigit)).getD rest
  if rest.isEmpty then some ⟨hour, minute, second, fraction, none⟩
  else
    let zone ← zone? (rest.dropWhile isSpace)
    some ⟨hour, minute, second, fraction, some zone⟩

/-- What separates a date from a time: a letter, or white space. -/
def afterDate? : List Char → Option (List Char)
  | c :: cs =>
    if c = 'T' ∨ c = 't' then some cs
    else if isSpace c then some (cs.dropWhile isSpace)
    else none
  | [] => none

/-- A date, perhaps with a time, up to the end of the text. -/
def timestamp? (cs : List Char) : Option DateParts := do
  let year := (cs.take 4).takeWhile Char.isDigit
  if year.length = 4 then
    let rest ← after? '-' (cs.drop 4)
    let (month, rest) ← shortDigits? 1 rest
    let rest ← after? '-' rest
    let (day, rest) ← shortDigits? 1 rest
    if rest.isEmpty then some ⟨year, month, day, none⟩
    else
      let time ← time? (← afterDate? rest)
      some ⟨year, month, day, some time⟩
  else none

/-- A date or a moment.  The month and the day of a date alone have two digits. -/
def isTimestamp (cs : List Char) : Bool :=
  match timestamp? cs with
  | some d => d.time.isSome || (d.month.length == 2 && d.day.length == 2)
  | none => false

end Form

namespace Tag

/-- The type that a plain scalar has by its form.  One line feed at its end does not count. -/
def ofPlain (text : String) : Tag :=
  let cs := Form.body text.toList
  if text = "" then .null
  else if Form.isBool cs then .bool
  else if Form.isFloat cs then .float
  else if Form.isInt cs then .int
  else if cs = "<<".toList then .merge
  else if Form.isNull cs then .null
  else if Form.isTimestamp cs then .timestamp
  else if cs = "=".toList then .value
  else if cs = "!".toList ∨ cs = "&".toList ∨ cs = "*".toList then .other
  else .text

/-- The type that a text has by its form; no form has a half of a pair in it. -/
def ofText (text : LooseText) : Tag := (text.whole?.map ofPlain).getD .text

/-- What the address of a standard type starts with. -/
def standard : String := "tag:yaml.org,2002:"

/-- The standard types by their names. -/
def names : List (String × Tag) :=
  [("null", .null), ("bool", .bool), ("int", .int), ("float", .float), ("binary", .binary),
   ("timestamp", .timestamp), ("omap", .orderedMapping), ("pairs", .pairs), ("set", .set),
   ("str", .text), ("seq", .sequence), ("map", .mapping), ("merge", .merge), ("value", .value)]

/-- The type with an address. -/
def ofAddress (address : String) : Tag :=
  ((names.find? fun n => standard ++ n.1 == address).map Prod.snd).getD .other

end Tag

end Document

end BoardWiring
