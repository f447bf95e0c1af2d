import BoardWiring.Value.Basic

/-!
# The order of sets

A set of numbers is shown in the order of the places that its members take in a table.  The table
has a power of two of places, more than twice as many as there are members.  Where a member is to
stand follows from its residue modulo 2 ^ 61 - 1; if that place is taken, others are tried in a
fixed sequence.  Any other set is shown in the order in which it was written.

* `SetOrder.arrange` puts the members of a set into their order.
-/

namespace BoardWiring

namespace SetOrder

/-- The modulus of the residues. -/
def modulus : Nat := Nat.pow 2 61 - 1

/-- The residue of a quotient whose denominator is a power of two. -/
def residue (num den : Nat) : Nat :=
  num % modulus * Nat.pow 2 ((61 - Nat.log2 den % 61) % 61) % modulus

/-- A residue with a sign; minus one is kept free. -/
def signed (negative : Bool) (n : Nat) : Int :=
  if negative then if n = 1 then -2 else -(n : Int) else n

/-- The residue of a member, if it is a number. -/
def key? : Value → Option Int
  | .bool b => some (if b then 1 else 0)
  | .int i => some (signed (decide (i < 0)) (residue i.natAbs 1))
  | .float (.finite negative m e) =>
    let r := Binary64.magnitude m e
    some (signed negative (residue r.1 r.2))
  | .float (.infinite negative) => some (signed negative 314159)
  | _ => none

/-- The number of places for `n` members. -/
def size (n : Nat) : Nat := if n < 5 then 8 else Nat.pow 2 (Nat.log2 (2 * n) + 1)

/-- The places that are tried one after the other from a place on: up to ten in a row, unless the
table ends before. -/
def row (size i : Nat) : List Nat := if i + 9 < size then List.range' i 10 else [i]

/-- The first free place, tried from `i` on in at most `fuel` rows; `shift` is what is left of the
residue. -/
def freePlace (size : Nat) (taken : List Nat) : Nat → Nat → Nat → Nat
  | 0, i, _ => i
  | fuel + 1, i, shift =>
    match (row size i).find? fun p => !taken.contains p with
    | some p => p
    | none =>
      let shift := shift / 32
      freePlace size taken fuel ((5 * i + 1 + shift) % size) shift

/-- The places of members with residues, one after the other. -/
def placesOf (size : Nat) : List Nat → List Int → List Nat
  | _, [] => []
  | taken, k :: ks =>
    let bits := (k % Int.pow 2 64).toNat
    let p := freePlace size taken (size + 13) (bits % size) bits
    p :: placesOf size (p :: taken) ks

/-- The members of a set in their order. -/
def arrange (members : List Value) : List Value :=
  match members.mapM key? with
  | none => members
  | some ks =>
    let places := placesOf (size ks.length) [] ks
    ((places.zip members).mergeSort fun a b => decide (a.1 ≤ b.1)).map Prod.snd

end SetOrder

end BoardWiring
