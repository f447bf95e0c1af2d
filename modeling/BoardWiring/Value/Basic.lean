import BoardWiring.Number.Binary64
import BoardWiring.Calendar
import BoardWiring.Text.Loose

/-!
# Values

The values that a document or a settings section can hold.  A collection that may contain itself
is `cyclic` and has a number of its own: inside it, `again` with this number stands for the
collection as a whole.  The operations below hide this: they hand out parts in which such an
occurrence has been replaced by the collection it stands for.

* `Value.body` is what a value consists of, `Value.items?` and `Value.field?` are the parts of
  lists and mappings;
* `LooseText.value` is any text as a value;
* `Value.sameKey` says when two values are one key of a mapping, and `Value.enter` puts an entry
  into a mapping.
-/

namespace BoardWiring

/-- A value; lists and mappings keep the order in which they were written.  A text is a string or
`torn`. -/
inductive Value where
  | null
  | bool (b : Bool)
  | int (i : Int)
  | float (x : Binary64)
  | text (s : String)
  | torn (t : TornText)
  | bytes (bs : List UInt8)
  | date (d : Date)
  | moment (m : Moment)
  | list (items : List Value)
  | pair (first second : Value)
  | mapping (entries : List (Value × Value))
  | set (members : List Value)
  | cyclic (number : Nat) (body : Value)
  | again (number : Nat)
  deriving Inhabited

/-- A text as a value. -/
def LooseText.value (t : LooseText) : Value :=
  match h : t.whole? with
  | some s => .text s
  | none => .torn ⟨t, h⟩

@[simp] theorem LooseText.value_ofString (s : String) : (ofString s).value = .text s := by
  unfold value
  split
  · simp_all
  · rename_i h
    simp at h

namespace Value

/-! ### Collections inside themselves -/

mutual

/-- Replaces what stands for the cyclic collection with a number by `v`. -/
def close (v : Value) (number : Nat) : Value → Value
  | .list xs => .list (closeList v number xs)
  | .mapping es => .mapping (closeEntries v number es)
  | .pair a b => .pair (close v number a) (close v number b)
  | .cyclic n b => if n = number then .cyclic n b else .cyclic n (close v number b)
  | .again n => if n = number then v else .again n
  | x => x

/-- `close` on the items of a list. -/
def closeList (v : Value) (number : Nat) : List Value → List Value
  | [] => []
  | x :: xs => close v number x :: closeList v number xs

/-- `close` on the entries of a mapping. -/
def closeEntries (v : Value) (number : Nat) : List (Value × Value) → List (Value × Value)
  | [] => []
  | (k, x) :: es => (close v number k, close v number x) :: closeEntries v number es

end

/-- What a value consists of: a cyclic collection with itself wherever something stands for
it. -/
def body : Value → Value
  | .cyclic n b => close (.cyclic n b) n b
  | v => v

mutual

/-- Two values are written alike in every part. -/
def alike : Value → Value → Bool
  | .null, .null => true
  | .bool a, .bool b => a == b
  | .int a, .int b => a == b
  | .float a, .float b => decide (a = b)
  | .text a, .text b => a == b
  | .torn a, .torn b => decide (a = b)
  | .bytes a, .bytes b => a == b
  | .date a, .date b => decide (a = b)
  | .moment a, .moment b => decide (a = b)
  | .list xs, .list ys => alikeList xs ys
  | .pair a b, .pair c d => alike a c && alike b d
  | .mapping es, .mapping fs => alikeEntries es fs
  | .set xs, .set ys => alikeList xs ys
  | .cyclic m a, .cyclic n b => m == n && alike a b
  | .again a, .again b => a == b
  | _, _ => false

/-- `alike` item by item. -/
def alikeList : List Value → List Value → Bool
  | [], [] => true
  | x :: xs, y :: ys => alike x y && alikeList xs ys
  | _, _ => false

/-- `alike` entry by entry. -/
def alikeEntries : List (Value × Value) → List (Value × Value) → Bool
  | [], [] => true
  | (k, x) :: es, (l, y) :: fs => alike k l && alike x y && alikeEntries es fs
  | _, _ => false

end

/-! ### Keys -/

/-- The integer that a truth value or an integer stands for as a key. -/
def asInt? : Value → Option Int
  | .bool b => some (if b then 1 else 0)
  | .int i => some i
  | _ => none

/-- Two values are the same key: numbers by their value, truth values being zero and one, the
other kinds by what they show.  What is no number is the same as nothing. -/
def sameKey (a b : Value) : Bool :=
  match a, b with
  | .float x, .float y => x.sameNumber y
  | .float x, y => (y.asInt?.map x.isInt).getD false
  | x, .float y => (x.asInt?.map y.isInt).getD false
  | .moment m, .moment n => m.same n
  | x, y =>
    match x.asInt?, y.asInt? with
    | some i, some j => i == j
    | _, _ => x.alike y

/-- Entries with one more.  A key that is there keeps its place and takes the new value. -/
def enter (key value : Value) : List (Value × Value) → List (Value × Value)
  | [] => [(key, value)]
  | (k, v) :: es => if sameKey k key then (k, value) :: es else (k, v) :: enter key value es

/-- The value of a key among entries. -/
def find? (key : Value) : List (Value × Value) → Option Value
  | [] => none
  | (k, v) :: es => if sameKey k key then some v else find? key es

/-! ### Parts -/

/-- The items of a list. -/
def items? (v : Value) : Option (List Value) :=
  match v.body with
  | .list xs => some xs
  | _ => none

/-- The value of a field of a mapping. -/
def field? (v : Value) (name : String) : Option Value :=
  match v.body with
  | .mapping es => find? (.text name) es
  | _ => none

/-- A mapping. -/
def isMapping : Value → Bool
  | .mapping _ | .cyclic _ (.mapping _) => true
  | _ => false

/-- Missing values are null. -/
def orNull : Option Value → Value
  | some v => v
  | none => .null

/-- Null. -/
def isNull : Value → Bool
  | .null => true
  | _ => false

/-- The value counts as present: any but null, false, zero and the empty ones. -/
def holds : Value → Bool
  | .null => false
  | .bool b => b
  | .int i => i != 0
  | .float x => !x.sameNumber (.zero false)
  | .text s => s != ""
  | .bytes bs => !bs.isEmpty
  | .list xs => !xs.isEmpty
  | .mapping es => !es.isEmpty
  | .set xs => !xs.isEmpty
  | .cyclic _ b => b.holds
  | _ => true

end Value

end BoardWiring
