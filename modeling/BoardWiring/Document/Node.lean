import BoardWiring.Document.Form

/-!
# Nodes of documents

A document is a graph: an alias and its anchor are one node.  Nodes refer to one another by their
numbers.
-/

namespace BoardWiring

namespace Document

/-- A node. -/
inductive Node where
  | scalar (tag : Tag) (text : LooseText)
  | sequence (tag : Tag) (items : List Nat)
  | mapping (tag : Tag) (entries : List (Nat × Nat))
  deriving Inhabited

/-- The tag of a node. -/
def Node.tag : Node → Tag
  | .scalar t _ => t
  | .sequence t _ => t
  | .mapping t _ => t

/-- The entries of a mapping. -/
def Node.entries : Node → List (Nat × Nat)
  | .mapping _ es => es
  | _ => []

/-- The nodes of a document, and the number of its root. -/
structure Graph where
  /-- Nodes by number. -/
  nodes : Array Node
  /-- Number of the root. -/
  root : Nat

end Document

end BoardWiring
