import BoardWiring.Number.Shortest
import BoardWiring.Text.Quoted
import BoardWiring.Value.Basic

/-!
# Texts of values

A value is shown on its own by `Value.shown`, and inside another value by `Value.quoted`, which
differ on texts, dates and moments.  A collection met again inside itself is shown by an ellipsis
between its brackets.  Where a text is asked for, a value gives `Value.asText`, in which the halves
of pairs are left as they are; `Value.shown` shows them by their numbers.

* `Value.isWritable` says that a value has a text: none of its integers is too long;
* `Value.shown_text` says that a text is shown as it is.
-/

namespace BoardWiring

namespace Value

/-- The brackets of a collection that is met again inside itself. -/
def ellipsis : Value → String
  | .list _ => "[...]"
  | _ => "\x7b...\x7d"

mutual

/-- The text of a value inside cyclic collections, given by their numbers with what is shown where
they are met again. -/
def quotedIn (loops : List (Nat × String)) : Value → String
  | .null => "None"
  | .bool true => "True"
  | .bool false => "False"
  | .int i => Digits.signed i
  | .float x => Shortest.text x
  | .text s => Quoted.text s
  | .torn t => Quoted.loose t.text
  | .bytes bs => Quoted.bytes bs
  | .date d => d.constructor
  | .moment m => m.constructor
  | .list xs => "[" ++ String.intercalate ", " (quotedItems loops xs) ++ "]"
  | .pair a b => "(" ++ quotedIn loops a ++ ", " ++ quotedIn loops b ++ ")"
  | .mapping es => "\x7b" ++ String.intercalate ", " (quotedEntries loops es) ++ "\x7d"
  | .set [] => "set()"
  | .set xs => "\x7b" ++ String.intercalate ", " (quotedItems loops xs) ++ "\x7d"
  | .cyclic n b => (loops.lookup n).getD (quotedIn ((n, ellipsis b) :: loops) b)
  | .again n => (loops.lookup n).getD ""

/-- The texts of the items of a list. -/
def quotedItems (loops : List (Nat × String)) : List Value → List String
  | [] => []
  | x :: xs => quotedIn loops x :: quotedItems loops xs

/-- The texts of the entries of a mapping. -/
def quotedEntries (loops : List (Nat × String)) : List (Value × Value) → List String
  | [] => []
  | (k, x) :: es =>
    (quotedIn loops k ++ ": " ++ quotedIn loops x) :: quotedEntries loops es

end

/-- The text of a value as a part of another. -/
def quoted (v : Value) : String := quotedIn [] v

/-- The text of a value on its own. -/
def shown : Value → String
  | .text s => s
  | .torn t => Quoted.escaped t.text
  | .date d => d.text
  | .moment m => m.text
  | v => v.quoted

/-- The text that a value gives. -/
def asText : Value → LooseText
  | .torn t => t.text
  | v => v.shown

mutual

/-- Every integer in a value is short enough to be written. -/
def isWritable : Value → Bool
  | .int i => Digits.isWritable i
  | .list xs => areWritable xs
  | .pair a b => isWritable a && isWritable b
  | .mapping es => entriesWritable es
  | .set xs => areWritable xs
  | .cyclic _ b => isWritable b
  | _ => true

/-- `isWritable` on every item of a list. -/
def areWritable : List Value → Bool
  | [] => true
  | x :: xs => isWritable x && areWritable xs

/-- `isWritable` on every entry of a mapping. -/
def entriesWritable : List (Value × Value) → Bool
  | [] => true
  | (k, x) :: es => isWritable k && isWritable x && entriesWritable es

end

@[simp] theorem shown_text (s : String) : shown (.text s) = s := rfl

@[simp] theorem asText_text (s : String) : asText (.text s) = s := rfl

@[simp] theorem asText_value (t : LooseText) : t.value.asText = t := by
  unfold LooseText.value
  split <;> rename_i h
  · exact (LooseText.whole?_eq_some_iff.1 h).symm
  · rfl

@[simp] theorem isWritable_value (t : LooseText) : t.value.isWritable = true := by
  unfold LooseText.value
  split <;> rfl

end Value

end BoardWiring
