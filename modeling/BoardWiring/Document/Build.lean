import BoardWiring.Document.Literal
import BoardWiring.Document.Merge
import BoardWiring.Value.SetOrder

/-!
# Values of documents

The graph of a document stands for a value.  Collections are filled one after the other, the
outer ones before the inner ones, and the first fault that is met on this way is the one that
counts.  What a node has become stays so, even if the mappings behind it are merged later.

* `Walk.fillAll` fills the collections;
* `Graph.value` is the value of a graph.
-/

namespace BoardWiring

namespace Document

namespace Graph

/-- The type of a node is one of collections. -/
def isCollection : Tag → Bool
  | .sequence | .mapping | .orderedMapping | .pairs | .set => true
  | _ => false

/-- The greatest number of mappings of which each is the default value of the one before. -/
def maxDefaults : Nat := 984

/-- The text of a scalar, or of the default value of a mapping. -/
def scalarText (ns : Array Node) : Nat → Nat → Except LoadFault LooseText
  | 0, _ => .error .tooDeep
  | fuel + 1, id =>
    match at? ns id with
    | .scalar _ text => .ok text
    | .mapping _ es =>
      match es.find? fun e => (at? ns e.1).tag == .value with
      | some e => scalarText ns fuel e.2
      | none => .error notDocument
    | .sequence _ _ => .error notDocument

/-- What a node has become: the value of a scalar, or a collection of other nodes.  The word for
no number stands for the same value wherever it is written, and this is kept as `common`. -/
inductive Part where
  | scalar (v : Value) (common : Bool)
  | list (items : List Nat)
  | pairs (items : List (Nat × Nat))
  | mapping (entries : List (Nat × Nat))
  | set (members : List Nat)

/-- What becomes of a node that is no collection.  A time stamp must be written out. -/
def scalarPart (ns : Array Node) (id : Nat) : Except LoadFault Part := do
  let text ← scalarText ns maxDefaults id
  match at? ns id with
  | .mapping .timestamp _ => .error (.unbuilt .notText)
  | n =>
    let v ← Literal.value n.tag text
    pure (.scalar v (n.tag == .float && text.chars?.any Literal.isNotNumber))

/-! ### Filling collections -/

/-- Nodes that are being gone through. -/
structure Walk where
  /-- Nodes by number. -/
  nodes : Array Node
  /-- What the nodes have become that have been met. -/
  parts : Array (Option Part)
  /-- Collections in the order in which they are filled. -/
  order : Array Nat

namespace Walk

/-- Nothing has been met. -/
def start (ns : Array Node) : Walk := ⟨ns, Array.replicate ns.size none, #[]⟩

/-- What a node has become. -/
def part? (w : Walk) (id : Nat) : Option Part := w.parts[id]?.join

/-- Keeps what a node has become. -/
def put (w : Walk) (id : Nat) (p : Part) : Walk :=
  { w with parts := w.parts.setIfInBounds id (some p) }

/-- Meets a node: a scalar is built, a collection has to wait. -/
def meet (w : Walk) (id : Nat) : Except LoadFault Walk :=
  if (w.part? id).isSome then .ok w
  else if isCollection (at? w.nodes id).tag then
    .ok { w.put id (.list []) with order := w.order.push id }
  else do
    let p ← scalarPart w.nodes id
    pure (w.put id p)

/-- Two nodes are the same key: they are one node, or stand for the same value. -/
def sameKey (w : Walk) (k l : Nat) : Bool :=
  k == l ||
    match w.part? k, w.part? l with
    | some (.scalar a c), some (.scalar b d) => (c && d) || a.sameKey b
    | _, _ => false

/-- Entries with one more.  A key that is there keeps its place and takes the new value. -/
def enter (w : Walk) (e : Nat × Nat) : List (Nat × Nat) → List (Nat × Nat)
  | [] => [e]
  | f :: fs => if w.sameKey f.1 e.1 then (f.1, e.2) :: fs else f :: enter w e fs

/-- Meets the key and the value of an entry, and puts it behind others.  A collection is no
key. -/
def meetEntry (s : Walk × List (Nat × Nat)) (e : Nat × Nat) :
    Except LoadFault (Walk × List (Nat × Nat)) := do
  let w ← s.1.meet e.1
  match w.part? e.1 with
  | some (.scalar ..) =>
    let w ← w.meet e.2
    pure (w, w.enter e s.2)
  | _ => .error notDocument

/-- Meets the key and the value of an item of a list of pairs, and puts them behind others. -/
def meetPair (s : Walk × List (Nat × Nat)) (id : Nat) :
    Except LoadFault (Walk × List (Nat × Nat)) :=
  match at? s.1.nodes id with
  | .mapping _ [(k, v)] => do
    let w ← s.1.meet k
    let w ← w.meet v
    pure (w, s.2 ++ [(k, v)])
  | _ => .error notDocument

/-- The entries of a mapping after its merges. -/
def fillEntries (w : Walk) (id : Nat) : Except LoadFault (Walk × List (Nat × Nat)) := do
  let ns ← merge w.nodes id
  (at? ns id).entries.foldlM meetEntry ({ w with nodes := ns }, [])

/-- Fills a collection. -/
def fill (w : Walk) (id : Nat) : Except LoadFault Walk :=
  match at? w.nodes id with
  | .sequence .sequence xs => do
    let w ← xs.foldlM meet w
    pure (w.put id (.list xs))
  | .sequence .orderedMapping xs | .sequence .pairs xs => do
    let (w, ps) ← xs.foldlM meetPair (w, [])
    pure (w.put id (.pairs ps))
  | .mapping .mapping _ => do
    let (w, es) ← w.fillEntries id
    pure (w.put id (.mapping es))
  | .mapping .set _ => do
    let (w, es) ← w.fillEntries id
    pure (w.put id (.set (es.map Prod.fst)))
  | _ => .error notDocument

/-- Fills the collections from number `index` of the order on, `fuel` at most. -/
def fillAll : Nat → Nat → Walk → Except LoadFault Walk
  | 0, _, w => .ok w
  | fuel + 1, index, w =>
    match w.order[index]? with
    | none => .ok w
    | some id => do
      let w ← w.fill id
      fillAll fuel (index + 1) w

end Walk

/-! ### Values -/

/-- The values of two nodes. -/
def both? (f : Nat → Option Value) (e : Nat × Nat) : Option (Value × Value) := do
  let k ← f e.1
  let v ← f e.2
  pure (k, v)

/-- The value of a part, from the values of the nodes that it consists of. -/
def Part.value? (f : Nat → Option Value) : Part → Option Value
  | .scalar v _ => some v
  | .list xs => (xs.mapM f).map Value.list
  | .pairs ps => (ps.mapM (both? f)).map fun es => .list (es.map fun e => .pair e.1 e.2)
  | .mapping es => (es.mapM (both? f)).map Value.mapping
  | .set xs => (xs.mapM f).map fun vs => .set (SetOrder.arrange vs)

/-- Values by the numbers of their nodes, as far as they are known. -/
abbrev Known := Array (Option Value)

/-- The value of a node, if it is known. -/
def known? (known : Known) (id : Nat) : Option Value := known[id]?.join

/-- One more value, if it follows from those that are known. -/
def settleNode (ps : Array (Option Part)) (id : Nat) (known : Known) : Known :=
  if (known? known id).isSome then known
  else
    match ps[id]?.join.bind (Part.value? (known? known)) with
    | some v => known.setIfInBounds id (some v)
    | none => known

/-- The values that follow from those that are known; as inner nodes come behind the outer ones,
the last node is the first. -/
def settleOnce (ps : Array (Option Part)) (known : Known) : Known :=
  (List.range ps.size).foldr (settleNode ps) known

/-- The number of nodes whose values are known. -/
def countKnown (known : Known) : Nat := known.foldl (fun n v => if v.isSome then n + 1 else n) 0

/-- The values of all nodes from which no cycle can be reached. -/
def settle (ps : Array (Option Part)) : Nat → Known → Known
  | 0, known => known
  | fuel + 1, known =>
    let next := settleOnce ps known
    if countKnown next = countKnown known then next else settle ps fuel next

/-- The value of a node inside the collections `path`. -/
def valueWithin (ps : Array (Option Part)) (known : Known) : Nat → List Nat → Nat → Value
  | 0, _, _ => .null
  | fuel + 1, path, id =>
    match known? known id with
    | some v => v
    | none =>
      if id ∈ path then .again id
      else
        let value (x : Nat) : Value := valueWithin ps known fuel (id :: path) x
        .cyclic id ((ps[id]?.join.bind (Part.value? fun x => some (value x))).getD .null)

/-- The value of a node among what all nodes have become. -/
def valueOf (ps : Array (Option Part)) (id : Nat) : Value :=
  let known := settle ps (ps.size + 1) (Array.replicate ps.size none)
  valueWithin ps known (ps.size + 2) [] id

/-- The value that a graph stands for. -/
def value (g : Graph) : Except LoadFault Value := do
  let w ← (Walk.start g.nodes).meet g.root
  let w ← w.fillAll (g.nodes.size + 1) 0
  pure (valueOf w.parts g.root)

end Graph

end Document

end BoardWiring
