import BoardWiring.Document.Lexer
import BoardWiring.Document.Node

/-!
# Documents from tokens

The tokens of a text are read as one document.  An alias refers to the node of its anchor, which
must come before it; an anchor must not be given twice.

* `Graph.ofTokens?` is the graph of the document, or nothing if there is none.
-/

namespace BoardWiring

namespace Document

/-- What is known while tokens are read. -/
structure Reading where
  /-- Tokens that follow. -/
  tokens : List Token
  /-- Number of tokens that have been read. -/
  taken : Nat
  /-- The place where there are no further tokens, unless the text ends there. -/
  stop : Option Stop
  /-- Number of collections that are being read. -/
  depth : Nat
  /-- Nodes so far. -/
  nodes : Array Node
  /-- Nodes by their anchors. -/
  anchors : List (String × Nat)
  /-- What the handles of tags stand for. -/
  handles : List (String × String)

/-- An action that reads tokens. -/
abbrev Reader := StateT Reading (Except LoadFault)

namespace Reader

/-- Fails since the text is no document. -/
def refuse {α : Type} : Reader α := throw notDocument

/-- The next token, if there is one.  It is not given out as long as what follows it is needed
and cannot be cut. -/
def peek : Reader (Option Token) := do
  let s ← get
  match s.stop with
  | some p =>
    if s.tokens.isEmpty || p.held == some s.taken then throw p.reason else pure s.tokens.head?
  | none => pure s.tokens.head?

/-- Goes on by one token. -/
def drop : Reader Unit :=
  modify fun s => { s with tokens := s.tokens.drop 1, taken := s.taken + 1 }

/-- One of some tokens follows. -/
def follows (ts : List Token) : Reader Bool := do
  match ← peek with
  | some t => pure (ts.contains t)
  | none => pure false

/-- Goes on by one token, which must be `t`. -/
def expect (t : Token) : Reader Unit := do
  if ← follows [t] then drop else refuse

/-- One more node. -/
def add (n : Node) : Reader Nat := do
  let s ← get
  set { s with nodes := s.nodes.push n }
  pure s.nodes.size

/-- Gives a node its contents. -/
def put (id : Nat) (n : Node) : Reader Unit :=
  modify fun s => { s with nodes := s.nodes.setIfInBounds id n }

/-- The greatest number of collections inside one another. -/
def maxDepth : Nat := 490

/-- Reads what is inside a collection. -/
def inside {α : Type} (inner : Reader α) : Reader α := do
  let depth := (← get).depth
  if depth < maxDepth then
    modify fun s => { s with depth := depth + 1 }
    let a ← inner
    modify fun s => { s with depth := depth }
    pure a
  else throw .tooDeep

/-- The node that stands where nothing is written. -/
def addNothing : Reader Nat := add (.scalar .null "")

/-- Gives a node its anchor. -/
def anchor (name : Option String) (id : Nat) : Reader Unit :=
  match name with
  | none => pure ()
  | some a => modify fun s => { s with anchors := (a, id) :: s.anchors }

/-! ### Properties -/

/-- The properties of a node. -/
structure Properties where
  /-- Anchor. -/
  anchor : Option String
  /-- Address of the tag; one exclamation mark alone leaves the type open. -/
  tag : Option String

/-- An anchor. -/
def readAnchor : Reader (Option String) := do
  match ← peek with
  | some (.anchor a) =>
    drop
    pure (some a)
  | _ => pure none

/-- The handle and the rest of a tag. -/
def readTag : Reader (Option (Option String × String)) := do
  match ← peek with
  | some (.tag handle suffix) =>
    drop
    pure (some (handle, suffix))
  | _ => pure none

/-- The address of a tag, its handle replaced by what it stands for. -/
def resolve : Option (Option String × String) → Reader (Option String)
  | none => pure none
  | some (none, suffix) => pure (some suffix)
  | some (some h, suffix) => do
    match (← get).handles.lookup h with
    | some start => pure (some (start ++ suffix))
    | none => refuse

/-- An anchor and a tag in either order. -/
def readProperties : Reader Properties := do
  let a ← readAnchor
  let t ← readTag
  let a ← if a.isSome then pure a else readAnchor
  let address ← resolve t
  pure ⟨a, address⟩

/-- The type of a node is left open. -/
def isOpen (tag : Option String) : Bool := tag.isNone || tag == some "!"

/-- The type of a collection. -/
def tagOr (p : Properties) (open' : Tag) : Tag :=
  if isOpen p.tag then open' else Tag.ofAddress (p.tag.getD "")

/-- The type of a scalar.  A quoted one is a text unless its tag is one exclamation mark. -/
def scalarTag (p : Properties) (plain : Bool) (text : LooseText) : Tag :=
  match p.tag with
  | none => if plain then Tag.ofText text else .text
  | some t => if t = "!" then Tag.ofText text else Tag.ofAddress t

/-! ### Nodes -/

/-- The node of an alias. -/
def readAlias (name : String) : Reader Nat := do
  drop
  match (← get).anchors.lookup name with
  | some id => pure id
  | none => refuse

/-- Refuses an anchor that has been given. -/
def checkAnchor (p : Properties) : Reader Unit := do
  match p.anchor with
  | none => pure ()
  | some a => if ((← get).anchors.lookup a).isSome then refuse else pure ()

/-- A scalar. -/
def addScalar (p : Properties) (plain : Bool) (text : LooseText) : Reader Nat := do
  checkAnchor p
  let id ← add (.scalar (scalarTag p plain text) text)
  anchor p.anchor id
  pure id

/-- A sequence whose items are read by `items`. -/
def addSequence (p : Properties) (items : Reader (List Nat)) : Reader Nat := do
  checkAnchor p
  let tag := tagOr p .sequence
  let id ← add (.sequence tag [])
  anchor p.anchor id
  let xs ← inside items
  put id (.sequence tag xs)
  pure id

/-- A mapping whose entries are read by `entries`. -/
def addMapping (p : Properties) (entries : Reader (List (Nat × Nat))) : Reader Nat := do
  checkAnchor p
  let tag := tagOr p .mapping
  let id ← add (.mapping tag [])
  anchor p.anchor id
  let es ← inside entries
  put id (.mapping tag es)
  pure id

/-- Where a node may stand. -/
inductive Place where
  | flow
  | block
  | entry
  deriving DecidableEq

mutual

/-- A node.  In a flow collection there are no blocks; the value of an entry may be a sequence
that is not indented further than the entry. -/
def node : Nat → Place → Reader Nat
  | 0, _ => refuse
  | fuel + 1, place => do
    match ← peek with
    | some (.alias name) => readAlias name
    | _ =>
      let p ← readProperties
      match ← peek with
      | some (.scalar text plain) =>
        drop
        addScalar p plain text
      | some .flowSequenceStart =>
        drop
        addSequence p (flowItems fuel true)
      | some .flowMappingStart =>
        drop
        addMapping p (flowEntries fuel true)
      | some .blockEntry =>
        if place = .entry then addSequence p (looseItems fuel) else nothing p
      | some .blockSequenceStart =>
        if place = .flow then nothing p
        else
          drop
          addSequence p (blockItems fuel)
      | some .blockMappingStart =>
        if place = .flow then nothing p
        else
          drop
          addMapping p (blockEntries fuel)
      | _ => nothing p

/-- Properties alone make an empty scalar. -/
def nothing (p : Properties) : Reader Nat :=
  if p.anchor.isSome || p.tag.isSome then addScalar p (isOpen p.tag) "" else refuse

/-- A node, or an empty one if one of some tokens follows. -/
def nodeUnless (fuel : Nat) (place : Place) (ends : List Token) : Reader Nat :=
  match fuel with
  | 0 => refuse
  | fuel + 1 => do
    if ← follows ends then addNothing
    else if (← peek).isNone then refuse
    else node fuel place

/-- The items of a block. -/
def blockItems : Nat → Reader (List Nat)
  | 0 => refuse
  | fuel + 1 => do
    if ← follows [.blockEntry] then
      drop
      let x ← nodeUnless fuel .block [.blockEntry, .blockEnd]
      let xs ← blockItems fuel
      pure (x :: xs)
    else
      expect .blockEnd
      pure []

/-- The items of a sequence that is not indented. -/
def looseItems : Nat → Reader (List Nat)
  | 0 => refuse
  | fuel + 1 => do
    if ← follows [.blockEntry] then
      drop
      let x ← nodeUnless fuel .block [.blockEntry, .key, .value, .blockEnd]
      let xs ← looseItems fuel
      pure (x :: xs)
    else pure []

/-- The entries of a block. -/
def blockEntries : Nat → Reader (List (Nat × Nat))
  | 0 => refuse
  | fuel + 1 => do
    if ← follows [.key] then
      drop
      let k ← nodeUnless fuel .entry [.key, .value, .blockEnd]
      let v ← valueUnless fuel .entry [.key, .value, .blockEnd]
      let es ← blockEntries fuel
      pure ((k, v) :: es)
    else
      expect .blockEnd
      pure []

/-- The value of an entry, an empty one if there is no colon. -/
def valueUnless (fuel : Nat) (place : Place) (ends : List Token) : Reader Nat :=
  match fuel with
  | 0 => refuse
  | fuel + 1 => do
    if ← follows [.value] then
      drop
      nodeUnless fuel place ends
    else addNothing

/-- The items of a flow sequence; an entry alone is a mapping of its own. -/
def flowItems : Nat → Bool → Reader (List Nat)
  | 0, _ => refuse
  | fuel + 1, first => do
    if ← follows [.flowSequenceEnd] then
      drop
      pure []
    else
      if !first then expect .flowEntry
      if ← follows [.key] then
        let x ← addMapping ⟨none, none⟩ (pairEntry fuel)
        let xs ← flowItems fuel false
        pure (x :: xs)
      else if ← follows [.flowSequenceEnd] then
        drop
        pure []
      else
        let x ← node fuel .flow
        let xs ← flowItems fuel false
        pure (x :: xs)

/-- An entry that stands alone in a flow sequence. -/
def pairEntry : Nat → Reader (List (Nat × Nat))
  | 0 => refuse
  | fuel + 1 => do
    drop
    let k ← nodeUnless fuel .flow [.value, .flowEntry, .flowSequenceEnd]
    let v ← valueUnless fuel .flow [.flowEntry, .flowSequenceEnd]
    pure [(k, v)]

/-- The entries of a flow mapping; a key may stand without a colon. -/
def flowEntries : Nat → Bool → Reader (List (Nat × Nat))
  | 0, _ => refuse
  | fuel + 1, first => do
    if ← follows [.flowMappingEnd] then
      drop
      pure []
    else
      if !first then expect .flowEntry
      if ← follows [.key] then
        drop
        let k ← nodeUnless fuel .flow [.value, .flowEntry, .flowMappingEnd]
        let v ← valueUnless fuel .flow [.flowEntry, .flowMappingEnd]
        let es ← flowEntries fuel false
        pure ((k, v) :: es)
      else if ← follows [.flowMappingEnd] then
        drop
        pure []
      else
        let k ← node fuel .flow
        let v ← addNothing
        let es ← flowEntries fuel false
        pure ((k, v) :: es)

end

/-! ### The document -/

/-- The handles that every document has. -/
def standardHandles : List (String × String) := [("!", "!"), ("!!", Tag.standard)]

/-- The directives before a document: at most one version, which must be 1, and one tag
directive for a handle. -/
def directives : Nat → Bool → List (String × String) → Reader (List (String × String))
  | 0, _, handles => pure handles
  | fuel + 1, versioned, handles => do
    match ← peek with
    | some (.versionDirective major) =>
      if versioned || major != 1 then refuse
      else
        drop
        directives fuel true handles
    | some (.tagDirective h start) =>
      if (handles.lookup h).isSome then refuse
      else
        drop
        directives fuel versioned ((h, start) :: handles)
    | some .otherDirective =>
      drop
      directives fuel versioned handles
    | _ => pure handles

/-- A directive, the start of a document or the end of the text follows. -/
def atExplicitStart : Reader Bool := do
  match ← peek with
  | none | some (.versionDirective _) | some (.tagDirective _ _) | some .otherDirective
  | some .documentStart => pure true
  | _ => pure false

/-- The contents of a document behind its start; it may be empty. -/
def content (fuel : Nat) : Reader Nat := do
  if (← atExplicitStart) || (← follows [.documentEnd]) then addNothing else node fuel .block

/-- The ends behind a document. -/
def documentEnds : Nat → Reader Unit
  | 0 => pure ()
  | fuel + 1 => do
    if ← follows [.documentEnd] then
      drop
      documentEnds fuel
    else pure ()

/-- Refuses a further document, if it has a beginning at all. -/
def furtherDocument {α : Type} (fuel : Nat) : Reader α := do
  let _ ← directives fuel false []
  expect .documentStart
  refuse

/-- The only document of the text, if there is one. -/
def document (fuel : Nat) : Reader (Option Nat) := do
  if (← peek).isNone then pure none
  else
    let root ←
      if ← atExplicitStart then do
        let handles ← directives fuel false []
        modify fun s => { s with handles := handles ++ standardHandles }
        expect .documentStart
        content fuel
      else node fuel .block
    documentEnds fuel
    if (← peek).isSome then furtherDocument fuel else pure (some root)

end Reader

namespace Graph

/-- The graph of the document that tokens stand for, if there is one. -/
def ofTokens? (ts : Tokens) : Except LoadFault (Option Graph) := do
  let (root, s) ←
    (Reader.document (4 * ts.list.length + 8)).run
      ⟨ts.list, 0, ts.stop, 0, #[], [], Reader.standardHandles⟩
  pure (root.map fun r => ⟨s.nodes, r⟩)

end Graph

end Document

end BoardWiring
