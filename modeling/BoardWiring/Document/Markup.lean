import BoardWiring.Document.Cursor
import BoardWiring.Text.Digits

/-!
# Names in documents

The names of anchors, the handles and addresses of tags, and the directives at the start of a
document.

* `Markup.anchorName`, `Markup.tag` and `Markup.directive` read them behind their indicators.
-/

namespace BoardWiring

namespace Document

namespace Markup

/-- A character of a name. -/
def isNameChar (ch : Char) : Bool := ch.isAlphanum || ch == '-' || ch == '_'

/-- A character of the address of a tag. -/
def isAddressChar (ch : Char) : Bool :=
  ch.isAlphanum || "-;/?:@&=+$,_.!~*'()[]".toList.contains ch

/-- Bytes as a text, if they are UTF-8. -/
def decode? (bytes : List Nat) : Option (List Char) :=
  (String.fromUTF8? (ByteArray.mk (bytes.map UInt8.ofNat).toArray)).map String.toList

/-- A run of escaped bytes, and the place behind it. -/
def escapedBytes : Nat → Cursor → Except LoadFault (List Nat × Cursor)
  | 0, c => .ok ([], c)
  | fuel + 1, c =>
    if c.nextIs '%' then
      match (c.rest.drop 1).take 2 |>.filterMap Digits.hexValue? with
      | [high, low] => do
        let (bytes, c) ← escapedBytes fuel (c.advanceBy 3)
        pure ((16 * high + low) :: bytes, c)
      | _ => .error notDocument
    else .ok ([], c)

/-- The pieces of an address, and the place behind it. -/
def addressWithin : Nat → Cursor → Except LoadFault (List Char × Cursor)
  | 0, c => .ok ([], c)
  | fuel + 1, c =>
    let (cs, c) := c.takeWhile isAddressChar
    if c.nextIs '%' then do
      let (bytes, c) ← escapedBytes (c.rest.length + 1) c
      match decode? bytes with
      | none => .error notDocument
      | some ds =>
        let (more, c) ← addressWithin fuel c
        pure (cs ++ ds ++ more, c)
    else .ok (cs, c)

/-- The address of a tag, which must not be missing, and the place behind it. -/
def address (c : Cursor) : Except LoadFault (List Char × Cursor) :=
  if c.nextIn fun ch => isAddressChar ch || ch == '%' then addressWithin (c.rest.length + 1) c
  else .error notDocument

/-- The handle of a tag: one exclamation mark, or a name between two. -/
def handle (c : Cursor) : Except LoadFault (List Char × Cursor) :=
  if c.nextIs '!' then
    let (name, c) := c.advance.takeWhile isNameChar
    if c.nextIs '!' then .ok ('!' :: name ++ ['!'], c.advance)
    else if name.isEmpty && c.nextIs ' ' then .ok (['!'], c)
    else .error notDocument
  else .error notDocument

/-- The place if white space other than a tab follows, or the end. -/
def ended (c : Cursor) : Except LoadFault Cursor :=
  if c.atSpaceOrEnd then .ok c else .error notDocument

/-- A handle stands before the address of a tag: an exclamation mark comes before white
space. -/
def hasHandle (cs : List Char) : Bool :=
  (cs.takeWhile fun ch => !(ch == ' ' || isBreak ch)).contains '!'

/-- The handle and the rest of a tag behind its indicator, and the place behind it.  A tag that is
the indicator alone has no handle. -/
def tag (c : Cursor) : Except LoadFault (Option String × String × Cursor) := do
  let next := c.second
  if next = some '<' then
    let (cs, c) ← address (c.advanceBy 2)
    if c.nextIs '>' then
      let c ← ended c.advance
      pure (none, String.ofList cs, c)
    else .error notDocument
  else if Cursor.isGap next then
    let c ← ended c.advance
    pure (none, "!", c)
  else if hasHandle (c.rest.drop 1) then
    let (h, c) ← handle c
    let (cs, c) ← address c
    let c ← ended c
    pure (some (String.ofList h), String.ofList cs, c)
  else
    let (cs, c) ← address c.advance
    let c ← ended c
    pure (some "!", String.ofList cs, c)

/-- The name of an anchor behind its indicator, and the place behind it. -/
def anchorName (c : Cursor) : Except LoadFault (String × Cursor) :=
  let (name, c) := c.advance.takeWhile isNameChar
  if name.isEmpty then .error notDocument
  else if Cursor.isGap c.peek || c.nextIn ("?:,]\x7d%@\x60".toList.contains ·) then
    .ok (String.ofList name, c)
  else .error notDocument

/-! ### Directives -/

/-- A directive. -/
inductive Directive where
  | version (major : Nat)
  | tag (handle start : String)
  | other

/-- A number of a version. -/
def number (c : Cursor) : Except LoadFault (Nat × Cursor) :=
  let (ds, c) := c.takeWhile Char.isDigit
  if ds.isEmpty then .error notDocument
  else if Digits.limit < ds.length then .error (.unbuilt .notInt)
  else .ok (Digits.value 10 (ds.map fun d => d.toNat - 48), c)

/-- The number of the version in a directive. -/
def version (c : Cursor) : Except LoadFault (Nat × Cursor) := do
  let (major, c) ← number c.skipSpaces
  if c.nextIs '.' then
    let (_, c) ← number c.advance
    let c ← ended c
    pure (major, c)
  else .error notDocument

/-- The handle and the start of the tags in a directive. -/
def tagStart (c : Cursor) : Except LoadFault (String × String × Cursor) := do
  let (h, c) ← handle c.skipSpaces
  if c.nextIs ' ' then
    let (cs, c) ← address c.skipSpaces
    let c ← ended c
    pure (String.ofList h, String.ofList cs, c)
  else .error notDocument

/-- A directive behind its indicator, and the place behind its line. -/
def directive (c : Cursor) : Except LoadFault (Directive × Cursor) := do
  let (name, c) := c.advance.takeWhile isNameChar
  if name.isEmpty then .error notDocument
  else
    let c ← ended c
    let (d, c) ←
      if name = "YAML".toList then do
        let (major, c) ← version c
        pure (Directive.version major, c)
      else if name = "TAG".toList then do
        let (h, cs, c) ← tagStart c
        pure (Directive.tag h cs, c)
      else pure (Directive.other, c.skipLine)
    let c := c.skipSpaces
    let c := if c.nextIs '#' then c.skipLine else c
    if c.atLineEnd then pure (d, c.skipBreak) else .error notDocument

end Markup

end Document

end BoardWiring
