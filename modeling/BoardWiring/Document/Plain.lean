import BoardWiring.Document.Cursor

/-!
# Plain scalars

Scalars without quotes.  They end where something could begin that is not part of them; a line
break inside is folded to a space, further ones are kept.

* `Plain.starts` says where a plain scalar begins, `Plain.read` reads it.
-/

namespace BoardWiring

namespace Document

namespace Plain

/-- The characters that have a meaning of their own at the start of a token. -/
def isIndicator (ch : Char) : Bool := "-?:,[]\x7b\x7d#&*!|>'\"%@\x60".toList.contains ch

/-- A plain scalar begins here. -/
def starts (flow : Bool) (c : Cursor) : Bool :=
  match c.peek with
  | none => false
  | some ch =>
    !(Cursor.isGap (some ch) || isIndicator ch) ||
      (!Cursor.isGap c.second && (ch == '-' || (!flow && (ch == '?' || ch == ':'))))

/-- A character that ends a word inside flow collections. -/
def endsInFlow (ch : Char) : Bool :=
  ch == ',' || ch == '?' || ch == '[' || ch == ']' || ch == '{' || ch == '}'

/-- A colon ends a word before white space, and inside flow collections before their marks. -/
def colonEnds (flow : Bool) (next : Option Char) : Bool :=
  Cursor.isGap next ||
    (flow && next.any fun ch =>
      ch == ',' || ch == '[' || ch == ']' || ch == '{' || ch == '}')

/-- The word at the start of a text. -/
def word (flow : Bool) : List Char → List Char
  | [] => []
  | ch :: rest =>
    if Cursor.isGap (some ch) || (ch == ':' && colonEnds flow rest.head?) ||
        (flow && endsInFlow ch) then []
    else ch :: word flow rest

/-- Line breaks with spaces before and after them; none if a separator of documents follows. -/
def breaks : Nat → Cursor → Option (List Char) × Cursor
  | 0, c => (some [], c)
  | fuel + 1, c =>
    if c.atSeparator then (none, c)
    else
      let c := c.skipSpaces
      match c.lineBreak? with
      | none => (some [], c)
      | some (ch, c) =>
        let (chs, c) := breaks fuel c
        (chs.map (ch :: ·), c)

/-- The space between two words: its text, whether a line ended in it, and the place behind
it. -/
def spaces (c : Cursor) : List Char × Bool × Cursor :=
  let (blank, c) := c.takeWhile (· == ' ')
  match c.lineBreak? with
  | none => (blank, false, c)
  | some (ch, c) =>
    match breaks (c.rest.length + 1) c with
    | (none, c) => ([], true, c)
    | (some more, c) =>
      if ch ≠ '\n' then (ch :: more, true, c)
      else if more.isEmpty then ([' '], true, c)
      else (more, true, c)

/-- The words from here on, with `before` put in front if there is a word; and whether a line
ended behind the last of them. -/
def words (flow : Bool) (indent : Int) : Nat → List Char → Bool → Cursor →
    List Char × Bool × Cursor
  | 0, _, ended, c => ([], ended, c)
  | fuel + 1, before, ended, c =>
    let w := if c.nextIs '#' then [] else word flow c.rest
    if w.isEmpty then ([], ended, c)
    else
      let (blank, ended, c) := spaces (c.advanceBy w.length)
      if blank.isEmpty || c.nextIs '#' || (!flow && decide ((c.column : Int) < indent)) then
        (before ++ w, ended, c)
      else
        let (cs, ended, c) := words flow indent fuel blank ended c
        (before ++ w ++ cs, ended, c)

/-- The text of the scalar, whether a line ended behind it, and the place behind it.  Outside of
flow collections its lines are indented by `indent` at least. -/
def read (flow : Bool) (indent : Int) (c : Cursor) : List Char × Bool × Cursor :=
  words flow indent (c.rest.length + 1) [] false c

end Plain

end Document

end BoardWiring
