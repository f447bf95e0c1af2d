import BoardWiring.Failure

/-!
# Tokens of documents

The parts that the text of a document is cut into.  Indentation has become tokens that open and
close blocks.

* `Tokens` are the tokens of a text, up to the place where it cannot be cut further.
-/

namespace BoardWiring

namespace Document

/-- A token of a document. -/
inductive Token where
  | versionDirective (major : Nat)
  | tagDirective (handle tagStart : String)
  | otherDirective
  | documentStart
  | documentEnd
  | blockSequenceStart
  | blockMappingStart
  | blockEnd
  | flowSequenceStart
  | flowSequenceEnd
  | flowMappingStart
  | flowMappingEnd
  | blockEntry
  | flowEntry
  | key
  | value
  | alias (name : String)
  | anchor (name : String)
  | tag (handle : Option String) (suffix : String)
  | scalar (text : LooseText) (plain : Bool)
  deriving DecidableEq, Inhabited

/-- A place where a text cannot be cut further. -/
structure Stop where
  /-- Why not. -/
  reason : LoadFault
  /-- Number of the first token before it of which it is still open whether it begins a key, and
  which is therefore not given out. -/
  held : Option Nat

/-- The tokens of a text. -/
structure Tokens where
  /-- Tokens in order. -/
  list : List Token
  /-- The place where the text cannot be cut further, unless it has been cut to its end. -/
  stop : Option Stop

end Document

end BoardWiring
