import BoardWiring.Failure
import BoardWiring.Number.Places

/-!
# Message templates

A message may hold places for its arguments, each behind a percent sign: what is written there,
how wide, and how precisely.  An integer that is too long for a decimal text is no argument for
one.

* `Template.fill` puts arguments into a template.
-/

namespace BoardWiring

namespace Log

/-- The arguments of a message: several, or one value that can also be asked for its fields. -/
inductive Arguments where
  | many (vs : List Value)
  | single (v : Value)

namespace Template

/-- The arguments that have not been used. -/
inductive Supply where
  | many (vs : List Value)
  | single (v : Value)
  | nothing

/-- The next argument. -/
def Supply.next : Supply → Except TemplateFault (Value × Supply)
  | .many (v :: vs) => .ok (v, .many vs)
  | .many [] => .error .arguments
  | .single v => .ok (v, .nothing)
  | .nothing => .error .arguments

/-- All arguments have been used. -/
def Supply.isUsedUp : Supply → Bool
  | .many vs => vs.isEmpty
  | .single _ => false
  | .nothing => true

/-- The value whose fields can be asked for. -/
def fieldsOf : Arguments → Option Value
  | .single (.mapping es) => some (.mapping es)
  | .single (.list xs) => some (.list xs)
  | _ => none

/-- How an argument is written. -/
structure Spec where
  /-- At the left of its place. -/
  left : Bool
  /-- With a plus sign. -/
  plus : Bool
  /-- With a space for the sign. -/
  blank : Bool
  /-- With the mark of its base, or with a point in any case. -/
  marked : Bool
  /-- Filled with zeros. -/
  zeros : Bool
  /-- Width of its place. -/
  width : Nat
  /-- Precision. -/
  precision : Option Nat
  /-- Letter for the kind of text. -/
  kind : Char

/-! ### Laying out -/

/-- Characters in their place; `fill` stands before them. -/
def place (s : Spec) (fill : Char) (before : List Char) (ps : List CodePoint) : List CodePoint :=
  let n := before.length + ps.length
  let pad (c : Char) : List CodePoint := List.replicate (s.width - n) (.char c)
  if s.left then before.map .char ++ ps ++ pad ' '
  else if fill = ' ' then pad ' ' ++ before.map .char ++ ps
  else before.map .char ++ pad fill ++ ps

/-- The sign of a number. -/
def signOf (s : Spec) (negative : Bool) : List Char :=
  if negative then ['-'] else if s.plus then ['+'] else if s.blank then [' '] else []

/-- A number in its place: its sign and mark, and its digits. -/
def placeNumber (s : Spec) (negative : Bool) (mark digits : List Char) : List CodePoint :=
  place s (if s.zeros then '0' else ' ') (signOf s negative ++ mark) (digits.map .char)

/-- A text in its place, cut to the precision. -/
def placeText (s : Spec) (t : LooseText) : List CodePoint :=
  place s ' ' [] ((s.precision.map t.points.take).getD t.points)

/-- An integer in a base, with at least as many digits as the precision asks for. -/
def placeInt (s : Spec) (base : Nat) (mark : List Char) (upper : Bool) (i : Int) :
    List CodePoint :=
  let ds := Digits.padLeft '0' (s.precision.getD 1) (Digits.write base i.natAbs)
  let ds := if upper then ds.map Char.toUpper else ds
  placeNumber s (decide (i < 0)) (if s.marked then mark else []) ds

/-- The magnitude of a double without its sign. -/
def doubleChars (s : Spec) (x : Binary64) : List Char :=
  let p := s.precision.getD 6
  match x with
  | .nan => "nan".toList
  | .infinite _ => "inf".toList
  | .finite _ m e =>
    let r := Binary64.magnitude m e
    match s.kind.toLower with
    | 'f' => Places.fixed s.marked p r.1 r.2
    | 'e' => Places.exponential s.marked p r.1 r.2
    | _ => Places.general s.marked p r.1 r.2

/-- A double in its place. -/
def placeDouble (s : Spec) (x : Binary64) : List CodePoint :=
  let cs := doubleChars s x
  placeNumber s x.isNegative [] (if s.kind.isUpper then cs.map Char.toUpper else cs)

/-! ### Arguments -/

/-- The text of a value. -/
def textOf (v : Value) : Except TemplateFault LooseText :=
  if v.isWritable then .ok v.asText else .error .tooLong

@[simp] theorem textOf_value (t : LooseText) : textOf t.value = .ok t := by
  rw [textOf, Value.isWritable_value, if_pos rfl, Value.asText_value]

/-- The text of a value as a part of another. -/
def quotedOf (v : Value) : Except TemplateFault String :=
  if v.isWritable then .ok v.quoted else .error .tooLong

/-- An argument as an integer; doubles are cut to their integer part. -/
def toInt : Value → Except TemplateFault Int
  | .int i => .ok i
  | .bool b => .ok (if b then 1 else 0)
  | .float x =>
    match x, x.truncated? with
    | _, some i => .ok i
    | .nan, none => .error .form
    | _, none => .error .range
  | _ => .error .arguments

/-- An argument that is an integer. -/
def ofInt : Value → Except TemplateFault Int
  | .int i => .ok i
  | .bool b => .ok (if b then 1 else 0)
  | _ => .error .arguments

/-- An argument as a double; integers that are too large are none. -/
def toDouble : Value → Except TemplateFault Binary64
  | .int i =>
    match Binary64.ofInt i with
    | .infinite _ => .error .range
    | x => .ok x
  | .bool b => .ok (.ofInt (if b then 1 else 0))
  | .float x => .ok x
  | _ => .error .arguments

/-- The only code point of a text. -/
def onlyPoint (t : LooseText) : Except TemplateFault CodePoint :=
  match t.points with
  | [p] => .ok p
  | _ => .error .arguments

/-- An argument as one code point: a text of one code point, or its number. -/
def toPoint : Value → Except TemplateFault CodePoint
  | .text s => onlyPoint s
  | .torn t => onlyPoint t.text
  | v => do
    let i ← ofInt v
    if 0 ≤ i ∧ i < 0x110000 then .ok (.ofCode i.toNat) else .error .range

/-- A text in ASCII, other characters by their numbers. -/
def asciiOnly (s : String) : String :=
  String.ofList (s.toList.flatMap fun c => if c.toNat < 128 then [c] else Quoted.numeric c.toNat)

/-- An argument as the letter for its kind says. -/
def write (s : Spec) (v : Value) : Except TemplateFault (List CodePoint) :=
  match s.kind with
  | 's' => do
    let t ← textOf v
    pure (placeText s t)
  | 'r' => do
    let t ← quotedOf v
    pure (placeText s t)
  | 'a' => do
    let t ← quotedOf v
    pure (placeText s (asciiOnly t))
  | 'd' | 'i' | 'u' => do
    let i ← toInt v
    if Digits.isWritable i then pure (placeInt s 10 [] false i) else .error .tooLong
  | 'o' => do
    let i ← ofInt v
    pure (placeInt s 8 ['0', 'o'] false i)
  | 'x' => do
    let i ← ofInt v
    pure (placeInt s 16 ['0', 'x'] false i)
  | 'X' => do
    let i ← ofInt v
    pure (placeInt s 16 ['0', 'X'] true i)
  | 'e' | 'E' | 'f' | 'F' | 'g' | 'G' => do
    let x ← toDouble v
    pure (placeDouble s x)
  | 'c' => do
    let p ← toPoint v
    pure (place s ' ' [] [p])
  | _ => .error .form

/-! ### Places -/

/-- What is left of a template and of its arguments. -/
structure Rest where
  /-- Template. -/
  template : List CodePoint
  /-- Arguments. -/
  supply : Supply

/-- The name of a field up to its closing bracket, with `depth` brackets open, and what follows
it. -/
def fieldName : Nat → List CodePoint → Option (List CodePoint × List CodePoint)
  | _, [] => none
  | depth, .char ')' :: ps =>
    match depth with
    | 0 => some ([], ps)
    | d + 1 => (fieldName d ps).map fun r => (.char ')' :: r.1, r.2)
  | depth, .char '(' :: ps => (fieldName (depth + 1) ps).map fun r => (.char '(' :: r.1, r.2)
  | depth, p :: ps => (fieldName depth ps).map fun r => (p :: r.1, r.2)

/-- Asks for a field, if the place names one: it becomes the only argument. -/
def readField (fields : Option Value) (r : Rest) : Except TemplateFault Rest :=
  match r.template, fields with
  | .char '(' :: _, none => .error .arguments
  | .char '(' :: ps, some v =>
    match fieldName 0 ps with
    | none => .error .form
    | some (name, rest) =>
      match v.body with
      | .mapping es =>
        match Value.find? (LooseText.mk name).value es with
        | some x => .ok ⟨rest, .single x⟩
        | none => .error .missingField
      | _ => .error .arguments
  | _, _ => .ok r

/-- A flag of a place. -/
def isFlag (c : Char) : Bool := c == '-' || c == '+' || c == ' ' || c == '#' || c == '0'

/-- The longest run of characters of a class at the start of a template, and what follows it. -/
def run (among : Char → Bool) (ps : List CodePoint) : List Char × List CodePoint :=
  let cs := (LooseText.headChars ps).takeWhile among
  (cs, ps.drop cs.length)

/-- The largest width of a place. -/
def maxWidth : Nat := Nat.pow 2 63 - 1

/-- The largest precision. -/
def maxPrecision : Nat := Nat.pow 2 31 - 1

/-- An amount given by an argument, which must be an integer within the limit. -/
def amountOf (limit : Nat) (v : Value) : Except TemplateFault Int := do
  let i ← ofInt v
  if -(limit : Int) - 1 ≤ i ∧ i ≤ limit then .ok i else .error .range

/-- An amount within a limit: digits, or a star for an argument.  Its sign is that of the
argument. -/
def readAmount (limit : Nat) (r : Rest) : Except TemplateFault (Option Int × Rest) :=
  match r.template with
  | .char '*' :: ps => do
    let (v, supply) ← r.supply.next
    let i ← amountOf limit v
    pure (some i, ⟨ps, supply⟩)
  | ps =>
    let (ds, rest) := run Char.isDigit ps
    if ds.isEmpty then .ok (none, r)
    else
      let n := Digits.value 10 (ds.map fun d => d.toNat - 48)
      if n ≤ limit then .ok (some (n : Int), ⟨rest, r.supply⟩) else .error .form

/-- The precision behind a point. -/
def readPrecision (r : Rest) : Except TemplateFault (Option Nat × Rest) :=
  match r.template with
  | .char '.' :: ps => do
    let (n, r) ← readAmount maxPrecision ⟨ps, r.supply⟩
    pure (some (n.getD 0).toNat, r)
  | _ => .ok (none, r)

/-- A letter for a size, which says nothing. -/
def skipSize : List CodePoint → List CodePoint
  | .char c :: ps => if c = 'h' ∨ c = 'l' ∨ c = 'L' then ps else .char c :: ps
  | ps => ps

/-- Fills one place behind its percent sign. -/
def fillPlace (fields : Option Value) (r : Rest) :
    Except TemplateFault (List CodePoint × Rest) := do
  let r ← readField fields r
  let (flags, rest) := run isFlag r.template
  let (width, r) ← readAmount maxWidth ⟨rest, r.supply⟩
  let (precision, r) ← readPrecision r
  match skipSize r.template with
  | [] => .error .form
  | kind :: rest =>
    let (v, supply) ← r.supply.next
    match kind with
    | .half _ => .error .form
    | .char kind =>
      let w := width.getD 0
      let s : Spec :=
        ⟨'-' ∈ flags ∨ w < 0, '+' ∈ flags, ' ' ∈ flags, '#' ∈ flags, '0' ∈ flags, w.natAbs,
          precision, kind⟩
      let ps ← write s v
      pure (ps, ⟨rest, supply⟩)

/-- Fills the places of a template, `fuel` at most. -/
def fillAll (fields : Option Value) :
    Nat → Rest → Except TemplateFault (List CodePoint × Supply)
  | 0, r => .ok ([], r.supply)
  | fuel + 1, r =>
    match r.template with
    | [] => .ok ([], r.supply)
    | .char '%' :: .char '%' :: ps => do
      let (out, supply) ← fillAll fields fuel ⟨ps, r.supply⟩
      pure (.char '%' :: out, supply)
    | .char '%' :: ps => do
      let (filled, r) ← fillPlace fields ⟨ps, r.supply⟩
      let (out, supply) ← fillAll fields fuel r
      pure (filled ++ out, supply)
    | p :: ps => do
      let (out, supply) ← fillAll fields fuel ⟨ps, r.supply⟩
      pure (p :: out, supply)

/-- A template with its arguments filled in.  All arguments must be used, unless there is one
that can be asked for its fields. -/
def fill (template : LooseText) (args : Arguments) : Except TemplateFault LooseText := do
  let supply := match args with
    | .many vs => Supply.many vs
    | .single v => Supply.single v
  let ps := template.points
  let (out, left) ← fillAll (fieldsOf args) (ps.length + 1) ⟨ps, supply⟩
  if left.isUsedUp || (fieldsOf args).isSome then pure ⟨out⟩ else .error .arguments

end Template

end Log

end BoardWiring
