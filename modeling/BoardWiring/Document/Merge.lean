import BoardWiring.Document.Graph

/-!
# Merging

An entry whose key is the merge sign stands for the entries of other mappings, which come before
the mapping's own.  Of the mappings of a list, the first one counts most.

* `Graph.merge` resolves the merge entries of a mapping.
-/

namespace BoardWiring

namespace Document

namespace Graph

/-- The node with a number. -/
def at? (ns : Array Node) (id : Nat) : Node := ns[id]?.getD default

/-- Gives a mapping other entries. -/
def withEntries (ns : Array Node) (id : Nat) (es : List (Nat × Nat)) : Array Node :=
  ns.setIfInBounds id (.mapping (at? ns id).tag es)

/-- A key that is the sign for a default value is a text. -/
def asText (ns : Array Node) (id : Nat) : Array Node :=
  match at? ns id with
  | .scalar _ text => ns.setIfInBounds id (.scalar .text text)
  | .sequence _ xs => ns.setIfInBounds id (.sequence .text xs)
  | .mapping _ es => ns.setIfInBounds id (.mapping .text es)

/-- The entries of the mappings of a list, each of them resolved by `resolve`. -/
def entriesOfAll (resolve : Array Node → Nat → Except LoadFault (Array Node)) :
    Array Node → List Nat → Except LoadFault (Array Node × List (List (Nat × Nat)))
  | ns, [] => .ok (ns, [])
  | ns, id :: ids =>
    match at? ns id with
    | .mapping _ _ => do
      let ns ← resolve ns id
      let es := (at? ns id).entries
      let (ns, more) ← entriesOfAll resolve ns ids
      pure (ns, es :: more)
    | _ => .error notDocument

/-- The entries that a merge entry stands for. -/
def entriesOf (resolve : Array Node → Nat → Except LoadFault (Array Node)) (ns : Array Node)
    (id : Nat) : Except LoadFault (Array Node × List (Nat × Nat)) :=
  match at? ns id with
  | .mapping _ _ => do
    let ns ← resolve ns id
    pure (ns, (at? ns id).entries)
  | .sequence _ ids => do
    let (ns, es) ← entriesOfAll resolve ns ids
    pure (ns, es.reverse.flatten)
  | .scalar _ _ => .error notDocument

/-- Goes through the entries of a mapping from number `index` on, and collects what its merge
entries stand for behind `merged`. -/
def mergeFrom (resolve : Array Node → Nat → Except LoadFault (Array Node)) (id : Nat) :
    Nat → Array Node → Nat → List (Nat × Nat) → Except LoadFault (Array Node)
  | 0, ns, _, merged => .ok (withEntries ns id (merged ++ (at? ns id).entries))
  | steps + 1, ns, index, merged =>
    match (at? ns id).entries[index]? with
    | none => .ok (withEntries ns id (merged ++ (at? ns id).entries))
    | some (k, v) =>
      if (at? ns k).tag = .merge then do
        let ns := withEntries ns id ((at? ns id).entries.eraseIdx index)
        let (ns, es) ← entriesOf resolve ns v
        mergeFrom resolve id steps ns index (merged ++ es)
      else if (at? ns k).tag = .value then
        mergeFrom resolve id steps (asText ns k) (index + 1) merged
      else mergeFrom resolve id steps ns (index + 1) merged

/-- Resolves the merge entries of a mapping, and of those that it merges, at most `depth`
deep. -/
def mergeWithin : Nat → Array Node → Nat → Except LoadFault (Array Node)
  | 0, _, _ => .error .tooDeep
  | depth + 1, ns, id =>
    mergeFrom (mergeWithin depth) id (at? ns id).entries.length ns 0 []

/-- The greatest number of mappings of which each merges the next. -/
def maxMerges : Nat := 986

/-- Resolves the merge entries of a mapping. -/
def merge (ns : Array Node) (id : Nat) : Except LoadFault (Array Node) :=
  mergeWithin maxMerges ns id

end Graph

end Document

end BoardWiring
