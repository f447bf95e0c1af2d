import BoardWiring.Proofs.PinNames
import BoardWiring.Proofs.Verdict
import Mathlib.Data.List.Pairwise

/-!
# Physical pins

The compiler compares pins as they are spelled.  A name that ends in a line feed, or whose number
has a digit of another script, is a spelling of its own, so the comparison does not see that it
names a pin which is taken already.

* `Pin.physical?` is the pin of the chip or of the expander that is meant, whatever its spelling;
* `Pin.HasVariants` says that a list holds two spellings of one pin of the chip;
* `Board.physical_pins_distinct_iff` says that the compiled boards on which a physical pin is used
  twice are those with variants.
-/

namespace BoardWiring

/-- A pin, whatever its spelling: by port and number, or by address, bank and index. -/
inductive PhysicalPin where
  | chip (port : Option Char) (number : Int)
  | expander (address : Int) (bank : Bank) (index : Int)
  deriving DecidableEq

namespace Pin

/-- The pin of the chip or of the expander that is meant. -/
def physical? (family : Family) : Pin → Option PhysicalPin
  | .mcu name number => some (.chip (Grammar.port? family name.toList) number)
  | .expander p => some (.expander p.address p.bank p.index)
  | .absent => none

/-- Two pins of the chip are spelled differently, but alike in plain spelling. -/
def HasVariants (ps : List Pin) : Prop :=
  ∃ m i n j, Pin.mcu m i ∈ ps ∧ Pin.mcu n j ∈ ps ∧ m ≠ n ∧
    Grammar.plain m.toList = Grammar.plain n.toList

variable {family : Family} {ps : List Pin}

theorem physical?_mcu_eq_iff {m n : String} {i j : Nat}
    (hm : Grammar.number? family m.toList = some i)
    (hn : Grammar.number? family n.toList = some j) :
    physical? family (.mcu m i) = physical? family (.mcu n j) ↔
      Grammar.plain m.toList = Grammar.plain n.toList := by
  rw [Grammar.plain_eq_iff hm hn]
  simp only [physical?, Option.some.injEq, PhysicalPin.chip.injEq, Int.ofNat_inj]

theorem eq_of_physical? (hnamed : AreNamed family ps) (hvariants : ¬HasVariants ps) {p q : Pin}
    (hp : p ∈ ps) (hq : q ∈ ps) {x : PhysicalPin} (hpx : physical? family p = some x)
    (hqx : physical? family q = some x) : p = q := by
  cases p with
  | absent => cases hpx
  | expander e =>
    cases hpx
    cases q with
    | absent => cases hqx
    | mcu n j => cases hqx
    | expander f =>
      obtain ⟨address, bank, index⟩ := e
      obtain ⟨address', bank', index'⟩ := f
      cases hqx
      rfl
  | mcu m i =>
    cases q with
    | absent => cases hqx
    | expander f =>
      cases hpx
      cases hqx
    | mcu n j =>
      obtain ⟨i', rfl, hm⟩ := hnamed m i hp
      obtain ⟨j', rfl, hn⟩ := hnamed n j hq
      have hplain := (physical?_mcu_eq_iff hm hn).1 (hpx.trans hqx.symm)
      have hname : m = n := by
        by_contra hne
        exact hvariants ⟨m, i', n, j', hp, hq, hne, hplain⟩
      subst hname
      cases hm.symm.trans hn
      rfl

/-- **Different pins are physically different if and only if there are no variants.** -/
theorem nodup_physical?_iff (hnamed : AreNamed family ps)
    (hnodup : (ps.filter (· ≠ .absent)).Nodup) :
    (ps.filterMap (physical? family)).Nodup ↔ ¬HasVariants ps := by
  rw [List.Nodup, List.pairwise_filterMap]
  rw [List.Nodup, List.pairwise_filter] at hnodup
  constructor
  · rintro hpairs ⟨m, i, n, j, hm, hn, hne, hplain⟩
    have hsymm : Std.Symm fun p q : Pin => ∀ x, physical? family p = some x →
        ∀ y, physical? family q = some y → x ≠ y :=
      ⟨fun p q h x hx y hy => (h y hy x hx).symm⟩
    have hpins : Pin.mcu m i ≠ Pin.mcu n j := fun h => hne (Pin.mcu.inj h).1
    have hdiffer := hpairs.forall hm hn hpins
    obtain ⟨i', rfl, hm'⟩ := hnamed m i hm
    obtain ⟨j', rfl, hn'⟩ := hnamed n j hn
    exact hdiffer _ ((physical?_mcu_eq_iff hm' hn').2 hplain) _ rfl rfl
  · intro hvariants
    refine hnodup.imp_of_mem fun {p q} hp hq hne x hpx y hqy hxy => ?_
    subst hxy
    have hpresent : ∀ r : Pin, physical? family r = some x → decide (r ≠ .absent) = true := by
      intro r hr
      cases r with
      | absent => cases hr
      | mcu => rfl
      | expander => rfl
    exact hne (hpresent p hpx) (hpresent q hqy) (eq_of_physical? hnamed hvariants hp hq hpx hqy)

end Pin

namespace Board

variable {b : Board} {source : String} {u : GeneratedUnit}

theorem Compiled.nodup_physical?_iff (h : Compiled b source u) :
    ((b.busPins ++ b.pins.toList).filterMap (Pin.physical? b.family)).Nodup ↔
      ¬Pin.HasVariants (b.busPins ++ b.pins.toList) :=
  Pin.nodup_physical?_iff h.areNamed (Emit.firstRepeat?_eq_none_iff.1 h.unique)

/-- **A physical pin is used twice on a compiled board if and only if it is spelled in two
ways.** -/
theorem physical_pins_distinct_iff (h : b.generate source = .ok u) :
    ((b.busPins ++ b.pins.toList).filterMap (Pin.physical? b.family)).Nodup ↔
      ¬Pin.HasVariants (b.busPins ++ b.pins.toList) :=
  (generate_eq_ok_iff.1 h).nodup_physical?_iff

/-- A board whose keys and bus have pins of their own. -/
def wired : Board where
  name := "wired"
  chip := "STM32F411CE"
  family := .stm32
  keys := ⟨.matrix [.text "PA0", .text "PC13"] [.text "PA1", .text "MI20_A0"], false, true⟩
  bus := ⟨true, .text "PB7", .text "PB6", .null, false, 0x20⟩

/-- It is compiled, and its physical pins are pairwise different. -/
theorem physical_pins_distinct_wired :
    (∃ u, wired.generate "" = .ok u) ∧
      ¬Pin.HasVariants (wired.busPins ++ wired.pins.toList) := by
  have hok := exists_unit (b := wired) (by decide) rfl ""
  have hpins : (wired.busPins ++ wired.pins.toList).filterMap (Pin.physical? wired.family) =
      [.chip 'B' 7, .chip 'B' 6, .chip 'A' 0, .chip 'C' 13, .chip 'A' 1,
        .expander 0x20 .a 0] := rfl
  refine ⟨hok, ?_⟩
  obtain ⟨u, hu⟩ := hok
  refine (physical_pins_distinct_iff hu).1 ?_
  rw [hpins]
  decide

/-- A board with two rows on one pin, the second spelled with a line feed. -/
def doubled : Board where
  name := "doubled"
  chip := "STM32F411CE"
  family := .stm32
  keys := ⟨.matrix [.text "PA0", .text "PA0\n"] [.text "PA1"], false, true⟩
  bus := .none

/-- It is compiled all the same. -/
theorem physical_pins_repeated_doubled :
    (∃ u, doubled.generate "" = .ok u) ∧
      ¬((doubled.busPins ++ doubled.pins.toList).filterMap
        (Pin.physical? doubled.family)).Nodup := by
  have hpins : (doubled.busPins ++ doubled.pins.toList).filterMap (Pin.physical? doubled.family) =
      [.chip 'A' 0, .chip 'A' 0, .chip 'A' 1] := rfl
  refine ⟨exists_unit (by decide) rfl "", ?_⟩
  rw [hpins]
  decide

end Board

end BoardWiring
