import BoardWiring.Document.Cursor
import BoardWiring.Text.Digits

/-!
# Quoted scalars

Scalars between single or double quotes.  A line break inside is folded to a space, further ones
are kept; only double quotes have escapes.

* `Quotation.read` reads the scalar behind its opening quote.
-/

namespace BoardWiring

namespace Document

namespace Quotation

/-- A character of text between quotes that means itself under either quote. -/
def isOrdinary (ch : Char) : Bool :=
  !(ch == '\'' || ch == '"' || ch == '\\' || ch == ' ' || ch == '\t' || isBreak ch)

/-- The character of a one-letter escape. -/
def escaped? (ch : Char) : Option Char :=
  [('0', '\x00'), ('a', '\x07'), ('b', '\x08'), ('t', '\t'), ('\t', '\t'), ('n', '\n'),
   ('v', '\x0b'), ('f', '\x0c'), ('r', '\r'), ('e', '\x1b'), (' ', ' '), ('"', '"'),
   ('\\', '\\'), ('/', '/'), ('N', '\x85'), ('_', '\xa0'), ('L', '\u2028'),
   ('P', '\u2029')].lookup ch

/-- The number of digits of a numeric escape. -/
def width? (ch : Char) : Option Nat := [('x', 2), ('u', 4), ('U', 8)].lookup ch

/-- The code point with a number. -/
def ofCode (n : Nat) : Except LoadFault CodePoint :=
  if 0x80000000 ≤ n then .error (.unbuilt .hugeEscape)
  else if 0x110000 ≤ n then .error (.unbuilt .escapeOutOfRange)
  else .ok (.ofCode n)

/-- The code point of a numeric escape of `width` digits, and the place behind it. -/
def numeric (width : Nat) (c : Cursor) : Except LoadFault (CodePoint × Cursor) :=
  let ds := (c.rest.take width).filterMap Digits.hexValue?
  if ds.length = width then do
    let p ← ofCode (Digits.value 16 ds)
    pure (p, c.advanceBy width)
  else .error notDocument

/-- Line breaks with white space before and after them; a separator of documents must not
follow. -/
def breaks : Nat → Cursor → Except LoadFault (List Char × Cursor)
  | 0, c => .ok ([], c)
  | fuel + 1, c =>
    if c.atSeparator then .error notDocument
    else
      let c := c.skipWhile fun ch => ch == ' ' || ch == '\t'
      match c.lineBreak? with
      | none => .ok ([], c)
      | some (ch, c) => do
        let (chs, c) ← breaks fuel c
        pure (ch :: chs, c)

/-- White space between two words: kept within a line, folded where a line ends. -/
def spaces (c : Cursor) : Except LoadFault (List Char × Cursor) :=
  let (blank, c) := c.takeWhile fun ch => ch == ' ' || ch == '\t'
  match c.peek, c.lineBreak? with
  | none, _ => .error notDocument
  | some _, none => .ok (blank, c)
  | some _, some (ch, c) => do
    let (more, c) ← breaks (c.rest.length + 1) c
    if ch ≠ '\n' then pure (ch :: more, c)
    else if more.isEmpty then pure ([' '], c)
    else pure (more, c)

/-- An escape behind its backslash. -/
def escape (c : Cursor) : Except LoadFault (List CodePoint × Cursor) :=
  match c.peek with
  | none => .error notDocument
  | some ch =>
    match escaped? ch, width? ch with
    | some e, _ => .ok ([.char e], c.advance)
    | none, some width => do
      let (e, c) ← numeric width c.advance
      pure ([e], c)
    | none, none =>
      if isBreak ch then do
        let c := c.skipBreak
        let (chs, c) ← breaks (c.rest.length + 1) c
        pure (chs.map .char, c)
      else .error notDocument

/-- The text up to the closing quote, and the place behind that. -/
def readWithin (double : Bool) : Nat → Cursor → Except LoadFault (List CodePoint × Cursor)
  | 0, _ => .error notDocument
  | fuel + 1, c =>
    let (chs, c) := c.takeWhile isOrdinary
    let word : List CodePoint := chs.map .char
    match c.peek, c.second with
    | some '\'', next =>
      if double then do
        let (cs, c) ← readWithin double fuel c.advance
        pure (word ++ .char '\'' :: cs, c)
      else if next = some '\'' then do
        let (cs, c) ← readWithin double fuel (c.advanceBy 2)
        pure (word ++ .char '\'' :: cs, c)
      else .ok (word, c.advance)
    | some '"', _ =>
      if double then .ok (word, c.advance)
      else do
        let (cs, c) ← readWithin double fuel c.advance
        pure (word ++ .char '"' :: cs, c)
    | some '\\', _ =>
      if double then do
        let (e, c) ← escape c.advance
        let (cs, c) ← readWithin double fuel c
        pure (word ++ e ++ cs, c)
      else do
        let (cs, c) ← readWithin double fuel c.advance
        pure (word ++ .char '\\' :: cs, c)
    | _, _ => do
      let (blank, c) ← spaces c
      let (cs, c) ← readWithin double fuel c
      pure (word ++ blank.map .char ++ cs, c)

/-- The text behind the opening quote, and the place behind the closing one. -/
def read (double : Bool) (c : Cursor) : Except LoadFault (LooseText × Cursor) := do
  let (ps, c) ← readWithin double (c.rest.length + 1) c
  pure (⟨ps⟩, c)

end Quotation

end Document

end BoardWiring
