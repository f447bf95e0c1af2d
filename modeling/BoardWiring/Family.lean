import BoardWiring.Text.Blank

/-!
# Chip families

The families of microcontrollers that code is generated for.

* `Family.ofChip?` is the family of a chip, which its name begins with;
* `Family.ofChip?_eq_some_iff` says so: the name without the blanks around it and in lower case
  begins with the name of the family, which no other family's name does.
-/

namespace BoardWiring

/-- A family of microcontrollers. -/
inductive Family where
  | stm32
  | nrf52
  | rp2040
  | esp32
  deriving DecidableEq, Inhabited

namespace Family

/-- The families, in the order in which a chip name is compared with them. -/
def all : List Family := [.stm32, .nrf52, .rp2040, .esp32]

/-- The name of a family. -/
def name : Family → String
  | .stm32 => "stm32"
  | .nrf52 => "nrf52"
  | .rp2040 => "rp2040"
  | .esp32 => "esp32"

/-- The family of a chip, whose name begins with the family's in upper or lower case.  White
space around the name does not count. -/
def ofChip? (chip : String) : Option Family :=
  let cs := (Text.trim chip.toList).map Char.toLower
  all.find? fun f => f.name.toList.isPrefixOf cs

/-- No text begins with the names of two families. -/
theorem eq_of_names_begin {f g : Family} {cs : List Char} (hf : f.name.toList <+: cs)
    (hg : g.name.toList <+: cs) : f = g := by
  have shared : f.name.toList <+: g.name.toList ∨ g.name.toList <+: f.name.toList :=
    List.prefix_or_prefix_of_prefix hf hg
  revert shared
  cases f <;> cases g <;> decide

theorem mem_all (f : Family) : f ∈ all := by
  cases f <;> decide

/-- A chip is of a family when its name, without the blanks around it and in lower case, begins
with that of the family. -/
theorem ofChip?_eq_some_iff {chip : String} {f : Family} :
    ofChip? chip = some f ↔ f.name.toList <+: (Text.trim chip.toList).map Char.toLower := by
  generalize cut : (Text.trim chip.toList).map Char.toLower = cs
  simp only [ofChip?, cut]
  constructor
  · intro h
    simpa using List.find?_some h
  · intro h
    cases found : all.find? fun g => g.name.toList.isPrefixOf cs with
    | none => exact absurd h (by simpa using List.find?_eq_none.1 found f (mem_all f))
    | some g =>
      have hg : g.name.toList <+: cs := by simpa using List.find?_some found
      rw [eq_of_names_begin hg h]

end Family

end BoardWiring
