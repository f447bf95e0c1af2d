import BoardWiring.Document.Cursor

/-!
# Block scalars

Scalars that stand indented below their indicator, line by line, or with their lines folded.

* `Block.read` reads the scalar behind its indicator, inside a block of a given indentation.
-/

namespace BoardWiring

namespace Document

namespace Block

/-- What becomes of the line breaks at the end. -/
inductive Chomping where
  | strip
  | clip
  | keep
  deriving DecidableEq

/-- The chomping of an indicator. -/
def chomping? (ch : Option Char) : Option Chomping :=
  if ch = some '+' then some .keep else if ch = some '-' then some .strip else none

/-- The indentation of an indicator. -/
def increment? (ch : Option Char) : Option Nat :=
  ch.bind fun d => if d.isDigit then some (d.toNat - 48) else none

/-- The indicators behind the one of the style, in either order. -/
def indicators (c : Cursor) : Except LoadFault (Chomping × Option Nat × Cursor) :=
  let (chomp, inc, c) :=
    match chomping? c.peek, increment? c.peek with
    | some h, _ =>
      match increment? c.second with
      | some n => (h, some n, c.advanceBy 2)
      | none => (h, none, c.advance)
    | none, some n =>
      match chomping? c.second with
      | some h => (h, some n, c.advanceBy 2)
      | none => (Chomping.clip, some n, c.advance)
    | none, none => (Chomping.clip, none, c)
  if inc = some 0 then .error notDocument
  else if c.atSpaceOrEnd then .ok (chomp, inc, c)
  else .error notDocument

/-- What follows the indicators on their line: nothing but a comment. -/
def restOfLine (c : Cursor) : Except LoadFault Cursor :=
  let c := c.skipSpaces
  let c := if c.nextIs '#' then c.skipLine else c
  if c.atLineEnd then .ok c.skipBreak else .error notDocument

/-- Empty lines at the start, and the greatest column of the spaces in them and before the first
other character. -/
def leading : Nat → Nat → Cursor → List Char × Nat × Cursor
  | 0, widest, c => ([], widest, c)
  | fuel + 1, widest, c =>
    let c := c.skipSpaces
    let widest := max widest c.column
    match c.lineBreak? with
    | none => ([], widest, c)
    | some (ch, c) =>
      let (chs, widest, c) := leading fuel widest c
      (ch :: chs, widest, c)

/-- Empty lines, with spaces up to a column. -/
def breaks (indent : Nat) : Nat → Cursor → List Char × Cursor
  | 0, c => ([], c)
  | fuel + 1, c =>
    let c := c.skipSpacesTo indent
    match c.lineBreak? with
    | none => ([], c)
    | some (ch, c) =>
      let (chs, c) := breaks indent fuel c
      (ch :: chs, c)

/-- A character that keeps a line from being folded. -/
def startsMore (c : Cursor) : Bool := c.nextIn fun ch => ch == ' ' || ch == '\t'

/-- The lines of the scalar: their text, the last line break, the empty lines behind it. -/
def lines (folded : Bool) (indent : Nat) : Nat → List Char → Cursor →
    List Char × List Char × List Char × Cursor
  | 0, before, c => ([], [], before, c)
  | fuel + 1, before, c =>
    if c.column = indent ∧ c.peek.isSome then
      let more := startsMore c
      let (line, c) := c.takeWhile fun ch => !isBreak ch
      let lineBreak := (c.lineBreak?.map Prod.fst).toList
      let c := c.skipBreak
      let (after, c) := breaks indent (c.rest.length + 1) c
      if c.column = indent ∧ c.peek.isSome then
        let joint :=
          if folded && lineBreak == ['\n'] && !more && !startsMore c then
            if after.isEmpty then [' '] else []
          else lineBreak
        let (cs, last, tail, c) := lines folded indent fuel after c
        (before ++ line ++ joint ++ cs, last, tail, c)
      else (before ++ line, lineBreak, after, c)
    else ([], [], before, c)

/-- The text of the scalar and the place behind it.  The scalar stands in a block of indentation
`outer`, which is -1 outside of any block. -/
def read (folded : Bool) (outer : Int) (c : Cursor) : Except LoadFault (List Char × Cursor) := do
  let (chomp, inc, c) ← indicators c
  let c ← restOfLine c
  let least := max (outer + 1).toNat 1
  let (before, indent, c) :=
    match inc with
    | some n =>
      let indent := least + n - 1
      let (before, c) := breaks indent (c.rest.length + 1) c
      (before, indent, c)
    | none =>
      let (before, widest, c) := leading (c.rest.length + 1) 0 c
      (before, max least widest, c)
  let (cs, last, tail, c) := lines folded indent (c.rest.length + 1) before c
  let ending := if chomp = .strip then [] else last
  pure (cs ++ ending ++ (if chomp = .keep then tail else []), c)

end Block

end Document

end BoardWiring
