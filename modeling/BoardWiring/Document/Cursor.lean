import BoardWiring.Failure

/-!
# Cursors

A place in the text of a document: what follows it, and in which line and column it is.

* `Cursor.advance` goes on by one character, `Cursor.takeWhile` by the longest run of a class;
* `Cursor.lineBreak?` reads a line break, which is read as a line feed unless it is one of the
  two separators of lines and paragraphs.
-/

namespace BoardWiring

namespace Document

/-- The fault of a text that is no document. -/
def notDocument : LoadFault := .malformed "not a document"

/-- A character that ends a line. -/
def isBreak (c : Char) : Bool :=
  c == '\n' || c == '\r' || c == '\x85' || c == '\u2028' || c == '\u2029'

/-- A character that may stand in a document. -/
def isAllowed (c : Char) : Bool :=
  let n := c.toNat
  c == '\t' || c == '\n' || c == '\r' || c == '\x85' || decide (0x20 ≤ n ∧ n ≤ 0x7e) ||
    decide (0xa0 ≤ n ∧ n ≤ 0xfffd) || decide (0x10000 ≤ n)

/-- The byte order mark. -/
def byteOrderMark : Char := '\ufeff'

/-- A place in a text. -/
structure Cursor where
  /-- What follows. -/
  rest : List Char
  /-- Number of characters before. -/
  index : Nat
  /-- Number of lines before. -/
  line : Nat
  /-- Number of characters before on the same line. -/
  column : Nat

namespace Cursor

/-- The start of a text. -/
def start (cs : List Char) : Cursor := ⟨cs, 0, 0, 0⟩

/-- The next character. -/
def peek (c : Cursor) : Option Char := c.rest.head?

/-- The character behind the next one. -/
def second (c : Cursor) : Option Char := (c.rest.drop 1).head?

/-- The next character is `ch`. -/
def nextIs (c : Cursor) (ch : Char) : Bool := c.peek == some ch

/-- The next character is in a class; the end of the text is in none. -/
def nextIn (c : Cursor) (p : Char → Bool) : Bool := c.peek.any p

/-- The next character and a line feed behind a carriage return make one line break. -/
def endsLine (ch : Char) (next : Option Char) : Bool :=
  if ch = '\r' then next != some '\n' else isBreak ch

/-- One character further.  A byte order mark has no width. -/
def advance (c : Cursor) : Cursor :=
  match c.rest with
  | [] => c
  | ch :: rest =>
    if endsLine ch rest.head? then ⟨rest, c.index + 1, c.line + 1, 0⟩
    else ⟨rest, c.index + 1, c.line, if ch = byteOrderMark then c.column else c.column + 1⟩

/-- `n` characters further. -/
def advanceBy : Nat → Cursor → Cursor
  | 0, c => c
  | n + 1, c => advanceBy n c.advance

/-- The longest run of characters of a class, and the place behind it. -/
def takeWhile (p : Char → Bool) (c : Cursor) : List Char × Cursor :=
  let cs := c.rest.takeWhile p
  (cs, c.advanceBy cs.length)

/-- The place behind the longest run of characters of a class. -/
def skipWhile (p : Char → Bool) (c : Cursor) : Cursor := (c.takeWhile p).2

/-- The place behind spaces. -/
def skipSpaces (c : Cursor) : Cursor := c.skipWhile (· == ' ')

/-- The place behind spaces, but not beyond a column. -/
def skipSpacesTo (column : Nat) (c : Cursor) : Cursor :=
  c.advanceBy (min (column - c.column) (c.rest.takeWhile (· == ' ')).length)

/-- The place at the end of the line. -/
def skipLine (c : Cursor) : Cursor := c.skipWhile fun ch => !isBreak ch

/-- A line break and the place behind it. -/
def lineBreak? (c : Cursor) : Option (Char × Cursor) :=
  match c.rest with
  | '\r' :: '\n' :: _ => some ('\n', c.advanceBy 2)
  | ch :: _ =>
    if ch == '\u2028' || ch == '\u2029' then some (ch, c.advance)
    else if isBreak ch then some ('\n', c.advance)
    else none
  | [] => none

/-- The place behind a line break, if there is one. -/
def skipBreak (c : Cursor) : Cursor := (c.lineBreak?.map Prod.snd).getD c

/-- The end of the text, or a line break. -/
def atLineEnd (c : Cursor) : Bool := c.peek.all isBreak

/-- The end of the text, a line break or a space. -/
def atSpaceOrEnd (c : Cursor) : Bool := c.peek.all fun ch => ch == ' ' || isBreak ch

/-- A character is missing, or it is white space. -/
def isGap (c : Option Char) : Bool := c.all fun ch => ch == ' ' || ch == '\t' || isBreak ch

/-- The place stands before a mark of three characters that has white space behind it. -/
def atMark (mark : Char) (c : Cursor) : Bool :=
  match c.rest with
  | a :: b :: d :: rest => a == mark && b == mark && d == mark && isGap rest.head?
  | _ => false

/-- The place stands before one of the marks that separate documents. -/
def atSeparator (c : Cursor) : Bool := c.atMark '-' || c.atMark '.'

@[simp] theorem takeWhile_fst (p : Char → Bool) (c : Cursor) :
    (c.takeWhile p).1 = c.rest.takeWhile p := rfl

end Cursor

end Document

end BoardWiring
