import BoardWiring.Document.Block
import BoardWiring.Document.Markup
import BoardWiring.Document.Plain
import BoardWiring.Document.Quoted
import BoardWiring.Document.Token

/-!
# Cutting documents into tokens

The text is read from left to right.  Outside of flow collections, indentation opens and closes
blocks.  Whether a token is the key of an entry shows only at the colon behind it: a place where
a key may have begun is remembered, and the token that says so is put in there later.

* `Tokens.ofText` are the tokens of a text.
-/

namespace BoardWiring

namespace Document

/-- A place where the key of an entry may have begun. -/
structure Candidate where
  /-- Number of tokens before. -/
  position : Nat
  /-- There must be a key, since the block has begun there. -/
  required : Bool
  /-- Number of characters before. -/
  index : Nat
  /-- Line. -/
  line : Nat
  /-- Column. -/
  column : Nat

/-- What is known while a text is cut into tokens. -/
structure Lexer where
  /-- Place in the text. -/
  cursor : Cursor
  /-- Tokens so far, the last one first. -/
  tokens : List Token
  /-- Number of open flow collections. -/
  depth : Nat
  /-- Indentation of the innermost block, -1 outside of all blocks. -/
  indent : Int
  /-- Indentations of the blocks around it. -/
  outer : List Int
  /-- A key may begin here. -/
  keyAllowed : Bool
  /-- Places where a key may have begun, by the number of flow collections around them. -/
  candidates : List (Nat × Candidate)

namespace Lexer

/-- The start of a text, without a byte order mark. -/
def start (cs : List Char) : Lexer :=
  let c := Cursor.start cs
  let c := if c.nextIs byteOrderMark then c.advance else c
  ⟨c, [], 0, -1, [], true, []⟩

/-- The greatest number of characters between the start of a key and its colon. -/
def keyReach : Nat := 1024

/-- The text is inside a flow collection. -/
def inFlow (s : Lexer) : Bool := s.depth != 0

/-- One more token. -/
def emit (s : Lexer) (t : Token) : Lexer := { s with tokens := t :: s.tokens }

/-- A token put in behind the first `position` tokens. -/
def emitAt (s : Lexer) (position : Nat) (t : Token) : Lexer :=
  let behind := s.tokens.length - position
  { s with tokens := s.tokens.take behind ++ t :: s.tokens.drop behind }

/-- Goes on by `n` characters. -/
def move (s : Lexer) (n : Nat) : Lexer := { s with cursor := s.cursor.advanceBy n }

/-- Sets whether a key may begin. -/
def allowKey (s : Lexer) (allowed : Bool) : Lexer := { s with keyAllowed := allowed }

/-! ### Indentation -/

/-- Closes the blocks that are indented by more than `column`. -/
def unwindWithin (column : Int) : Nat → Lexer → Lexer
  | 0, s => s
  | fuel + 1, s =>
    if column < s.indent then
      unwindWithin column fuel
        { s with tokens := .blockEnd :: s.tokens, indent := s.outer.headD (-1)
                 outer := s.outer.drop 1 }
    else s

/-- Closes the blocks that are indented by more than `column`; flow collections have no
blocks. -/
def unwind (column : Int) (s : Lexer) : Lexer :=
  if s.inFlow then s else unwindWithin column (s.outer.length + 1) s

/-- Opens a block at a column, if the innermost one is indented by less. -/
def indentTo (s : Lexer) (column : Nat) (position : Nat) (t : Token) : Lexer :=
  if s.indent < column then
    { s with indent := column, outer := s.indent :: s.outer }.emitAt position t
  else s

/-! ### Keys -/

/-- A place is too far away for the key to have begun there. -/
def isStale (s : Lexer) (k : Candidate) : Bool :=
  k.line != s.cursor.line || decide (keyReach < s.cursor.index - k.index)

/-- Forgets the places that are too far away; a required one must not be forgotten. -/
def dropStale (s : Lexer) : Except LoadFault Lexer :=
  if s.candidates.any fun k => s.isStale k.2 && k.2.required then .error notDocument
  else .ok { s with candidates := s.candidates.filter fun k => !s.isStale k.2 }

/-- Number of the first token that may still turn out to begin a key. -/
def held? (s : Lexer) : Option Nat :=
  (s.candidates.filterMap fun k => if s.isStale k.2 then none else some k.2.position).min?

/-- The place where the key of an entry of the innermost collection may have begun. -/
def candidate? (s : Lexer) : Option Candidate := s.candidates.lookup s.depth

/-- The other places. -/
def withoutCandidate (s : Lexer) : Lexer :=
  { s with candidates := s.candidates.filter fun k => k.1 != s.depth }

/-- Forgets the place in the innermost collection, which must not be a required one. -/
def dropCandidate (s : Lexer) : Except LoadFault Lexer :=
  if (s.candidate?.map Candidate.required).getD false then .error notDocument
  else .ok s.withoutCandidate

/-- Remembers this place, if a key may begin here. -/
def saveCandidate (s : Lexer) : Except LoadFault Lexer :=
  if s.keyAllowed then do
    let s ← s.dropCandidate
    let c := s.cursor
    let k : Candidate :=
      ⟨s.tokens.length, !s.inFlow && decide (s.indent = c.column), c.index, c.line, c.column⟩
    pure { s with candidates := (s.depth, k) :: s.candidates }
  else .ok s

/-! ### Tokens -/

/-- The end of the text. -/
def readEnd (s : Lexer) : Except LoadFault Lexer := (s.unwind (-1)).dropCandidate

/-- A mark that separates documents. -/
def readMark (s : Lexer) (t : Token) : Except LoadFault Lexer := do
  let s ← (s.unwind (-1)).dropCandidate
  pure ((s.allowKey false).move 3 |>.emit t)

/-- The token of a directive. -/
def directiveToken : Markup.Directive → Token
  | .version major => .versionDirective major
  | .tag handle tagStart => .tagDirective handle tagStart
  | .other => .otherDirective

/-- A directive. -/
def readDirective (s : Lexer) : Except LoadFault Lexer := do
  let s ← (s.unwind (-1)).dropCandidate
  let (d, c) ← Markup.directive s.cursor
  pure ({ s with cursor := c, keyAllowed := false }.emit (directiveToken d))

/-- The opening bracket of a flow collection. -/
def readOpen (s : Lexer) (t : Token) : Except LoadFault Lexer := do
  let s ← s.saveCandidate
  pure ({ s with depth := s.depth + 1, keyAllowed := true }.move 1 |>.emit t)

/-- The closing bracket of a flow collection, one of which must be open. -/
def readClose (s : Lexer) (t : Token) : Except LoadFault Lexer :=
  if s.inFlow then do
    let s ← s.dropCandidate
    pure ({ s with depth := s.depth - 1, keyAllowed := false }.move 1 |>.emit t)
  else .error notDocument

/-- The comma of a flow collection. -/
def readComma (s : Lexer) : Except LoadFault Lexer := do
  let s ← (s.allowKey true).dropCandidate
  pure (s.move 1 |>.emit .flowEntry)

/-- Opens a block for an indicator that stands here, outside of flow collections. -/
def openBlock (s : Lexer) (t : Token) : Except LoadFault Lexer :=
  if s.inFlow then .ok s
  else if s.keyAllowed then .ok (s.indentTo s.cursor.column s.tokens.length t)
  else .error notDocument

/-- The indicator of an item of a block. -/
def readItem (s : Lexer) : Except LoadFault Lexer := do
  let s ← s.openBlock .blockSequenceStart
  let s ← (s.allowKey true).dropCandidate
  pure (s.move 1 |>.emit .blockEntry)

/-- The indicator of a key. -/
def readKey (s : Lexer) : Except LoadFault Lexer := do
  let s ← s.openBlock .blockMappingStart
  let s ← (s.allowKey !s.inFlow).dropCandidate
  pure (s.move 1 |>.emit .key)

/-- The colon before the value of an entry. -/
def readValue (s : Lexer) : Except LoadFault Lexer :=
  match s.candidate? with
  | some k =>
    let s := s.withoutCandidate.emitAt k.position .key
    let s := if s.inFlow then s else s.indentTo k.column k.position .blockMappingStart
    .ok ((s.allowKey false).move 1 |>.emit .value)
  | none => do
    let s ← s.openBlock .blockMappingStart
    let s ← (s.allowKey !s.inFlow).dropCandidate
    pure (s.move 1 |>.emit .value)

/-- An alias or an anchor. -/
def readName (s : Lexer) (t : String → Token) : Except LoadFault Lexer := do
  let s ← s.saveCandidate
  let (name, c) ← Markup.anchorName s.cursor
  pure ({ s with cursor := c, keyAllowed := false }.emit (t name))

/-- A tag. -/
def readTag (s : Lexer) : Except LoadFault Lexer := do
  let s ← s.saveCandidate
  let (handle, suffix, c) ← Markup.tag s.cursor
  pure ({ s with cursor := c, keyAllowed := false }.emit (.tag handle suffix))

/-- A scalar indented below its indicator. -/
def readBlock (s : Lexer) (folded : Bool) : Except LoadFault Lexer := do
  let s ← (s.allowKey true).dropCandidate
  let (cs, c) ← Block.read folded s.indent s.cursor.advance
  pure ({ s with cursor := c }.emit (.scalar (.ofChars cs) false))

/-- A scalar between quotes. -/
def readQuoted (s : Lexer) (double : Bool) : Except LoadFault Lexer := do
  let s ← s.saveCandidate
  let (text, c) ← Quotation.read double s.cursor.advance
  pure ({ s with cursor := c, keyAllowed := false }.emit (.scalar text false))

/-- A plain scalar. -/
def readPlain (s : Lexer) : Except LoadFault Lexer := do
  let s ← s.saveCandidate
  let (cs, ended, c) := Plain.read s.inFlow (s.indent + 1) s.cursor
  pure ({ s with cursor := c, keyAllowed := ended }.emit (.scalar (.ofChars cs) true))

/-! ### The text -/

/-- Goes on to the next token, beyond spaces, comments and line breaks.  Outside of flow
collections a key may begin on a new line. -/
def skipWithin : Nat → Lexer → Lexer
  | 0, s => s
  | fuel + 1, s =>
    let c := s.cursor.skipSpaces
    let c := if c.nextIs '#' then c.skipLine else c
    match c.lineBreak? with
    | some (_, c) =>
      skipWithin fuel { s with cursor := c, keyAllowed := s.keyAllowed || !s.inFlow }
    | none => { s with cursor := c }

/-- Goes on to the next token. -/
def skip (s : Lexer) : Lexer := skipWithin (s.cursor.rest.length + 1) s

/-- Reads the token that begins with a character. -/
def readAt (s : Lexer) (ch : Char) : Except LoadFault Lexer :=
  let c := s.cursor
  let gap := Cursor.isGap c.second
  if ch = '%' ∧ c.column = 0 then s.readDirective
  else if c.column = 0 ∧ c.atMark '-' then s.readMark .documentStart
  else if c.column = 0 ∧ c.atMark '.' then s.readMark .documentEnd
  else if ch = '[' then s.readOpen .flowSequenceStart
  else if ch = '{' then s.readOpen .flowMappingStart
  else if ch = ']' then s.readClose .flowSequenceEnd
  else if ch = '}' then s.readClose .flowMappingEnd
  else if ch = ',' then s.readComma
  else if ch = '-' ∧ gap then s.readItem
  else if ch = '?' ∧ (s.inFlow || gap) then s.readKey
  else if ch = ':' ∧ (s.inFlow || gap) then s.readValue
  else if ch = '*' then s.readName .alias
  else if ch = '&' then s.readName .anchor
  else if ch = '!' then s.readTag
  else if ch = '|' ∧ !s.inFlow then s.readBlock false
  else if ch = '>' ∧ !s.inFlow then s.readBlock true
  else if ch = '\'' then s.readQuoted false
  else if ch = '"' then s.readQuoted true
  else if Plain.starts s.inFlow c then s.readPlain
  else .error notDocument

/-- Reads the token that follows, or those at the end of the text. -/
def readNext (s : Lexer) : Except LoadFault Lexer := do
  let s ← s.dropStale
  let s := s.unwind s.cursor.column
  match s.cursor.peek with
  | none => s.readEnd
  | some ch => s.readAt ch

/-- Reads all tokens, `fuel` at most. -/
def readAll : Nat → Lexer → Tokens
  | 0, s => ⟨s.tokens.reverse, none⟩
  | fuel + 1, s =>
    let here := s.skip
    match here.readNext with
    | .error e => ⟨s.tokens.reverse, some ⟨e, s.held?⟩⟩
    | .ok next =>
      if here.cursor.peek.isNone then ⟨next.tokens.reverse, none⟩ else readAll fuel next

end Lexer

/-- The tokens of a text, which consists of allowed characters only. -/
def Tokens.ofText (cs : List Char) : Except LoadFault Tokens :=
  if cs.all isAllowed then .ok (Lexer.readAll (cs.length + 1) (Lexer.start cs))
  else .error notDocument

end Document

end BoardWiring
