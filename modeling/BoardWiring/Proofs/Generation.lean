import BoardWiring.GeneratedUnit
import BoardWiring.Proofs.BusStatements
import BoardWiring.Proofs.Emission

/-!
# Which boards are compiled, and to what

`Board.Compiled` collects what is true of a board that is accepted and of its unit, and
`Board.generate_eq_ok_iff` says that this is all there is to it.

* `Board.pins` and `Board.busPins` are the pins that the entries of a board are read as;
* `Board.Compiled.isSound` and `Board.Compiled.areNamed` say that every pin that is there can be
  initialised and has a name of its family, and `Board.Compiled.isReady_lines` says the same of
  the lines of the unit.
-/

namespace BoardWiring

open Outcome

/-- The lines of a unit, those of the bus before those of the pins. -/
def GeneratedUnit.lines (u : GeneratedUnit) : List String := u.bus.lines ++ u.pins.lines

/-- The pin that a line binds can be initialised in its role, and has a name of the family. -/
def PinLine.IsReady (family : Family) (x : PinLine) : Prop :=
  ∀ name pin role wrap, x = .bound name pin role wrap →
    pin.isSound = true ∧ Emit.roleFault? family pin role = none ∧ Pin.AreNamed family [pin]

namespace Board

/-- The pins that the entries for the keys are read as. -/
def pins (b : Board) : Layout Pin :=
  b.keys.layout.map (Pin.ofEntry b.family b.keys.layout.isGrid)

/-- The pins that the bus takes. -/
def busPins (b : Board) : List Pin := Bus.pins b.family b.bus

/-- The board has a bus that works. -/
def hasBus (b : Board) : Bool := b.bus.enabled && Bus.isSupported b.family

/-- What a board must satisfy to be compiled, and what it is compiled to. -/
structure Compiled (b : Board) (source : String) (u : GeneratedUnit) : Prop where
  read : ∀ v ∈ b.keys.layout.toList, ∃ p, Pin.read b.family b.keys.layout.isGrid v = .ok p
  bus : Bus.Built b.family b.bus (b.pins.toList.any Pin.isExpander) u.bus
  expanders : b.pins.toList.any Pin.isExpander = true → b.hasBus = true
  unique : Emit.firstRepeat? (b.busPins ++ b.pins.toList) = none
  rectangular : Emit.raggedFault? b.pins = none
  capable : ∀ p ∈ b.pins.inputs,
    Emit.roleFault? b.family p (.inputFor b.keys.interrupt) = none
  pins_eq : u.pins =
    Emit.ofLines b.family b.keys.activeLow (Emit.lines b.keys.interrupt b.pins)
  name_eq : u.boardName = b.name
  family_eq : u.family = b.family
  source_eq : u.source = source

variable {b : Board} {source : String} {u : GeneratedUnit}

theorem read_ofEntry {family : Family} {absent : Bool} {v : Value}
    (h : ∃ p, Pin.read family absent v = .ok p) :
    Pin.read family absent v = .ok (Pin.ofEntry family absent v) := by
  obtain ⟨p, hp⟩ := h
  rw [hp, Pin.ofEntry_of_read hp]

theorem readLayout_eq
    (h : ∀ v ∈ b.keys.layout.toList, ∃ p, Pin.read b.family b.keys.layout.isGrid v = .ok p) :
    b.readLayout = .ok b.pins :=
  Layout.read_eq_ok fun v hv => read_ofEntry (h v hv)

theorem sound_pins
    (h : ∀ v ∈ b.keys.layout.toList, ∃ p, Pin.read b.family b.keys.layout.isGrid v = .ok p) :
    Emit.IsSound b.pins := by
  intro p hp
  rw [pins, Layout.toList_map] at hp
  obtain ⟨v, hv, rfl⟩ := List.mem_map.1 hp
  obtain ⟨raw, rfl, hs⟩ := Pin.read_eq_ok_iff.1 (read_ofEntry (h v hv))
  by_cases habsent : Pin.ofEntry b.family b.keys.layout.isGrid (.text raw) = .absent
  · right
    rw [habsent] at hs ⊢
    cases hs with
    | absent _ allowed => exact ⟨rfl, by simpa [pins] using allowed⟩
  · exact Or.inl (hs.isSound habsent)

theorem checkExpanders_eq {bus : Fragment} {ps : List Pin} :
    checkExpanders bus ps = .ok () ↔ (ps.any Pin.isExpander = true → Bus.isUsable bus = true) := by
  unfold checkExpanders
  cases hf : ps.find? Pin.isExpander with
  | none =>
    have hany : ps.any Pin.isExpander = false := by
      simpa using hf
    simp [hany]
  | some p =>
    have hany : ps.any Pin.isExpander = true :=
      List.any_eq_true.2 ⟨p, List.mem_of_find?_eq_some hf, List.find?_some hf⟩
    cases Bus.isUsable bus <;> simp [hany]

theorem sublist_unique {ps qs : List Pin} (h : Emit.firstRepeat? (ps ++ qs) = none) :
    Emit.firstRepeat? qs = none :=
  Emit.firstRepeat?_of_sublist (List.sublist_append_right ps qs) h

theorem check_eq_ok_iff {fs : List Fragment} :
    Fragment.check fs = .ok () ↔ ∀ f ∈ fs, f.diagnostics = [] := by
  unfold Fragment.check
  cases hf : Fragment.firstDiagnostic? fs with
  | none => simpa [Fragment.firstDiagnostic?] using hf
  | some e =>
    obtain ⟨f, hmem, hhead⟩ := List.exists_of_findSome?_eq_some hf
    have hne : f.diagnostics ≠ [] := by
      intro hnil
      simp [hnil] at hhead
    simp only [reduceCtorEq, false_iff, not_forall]
    exact ⟨f, hmem, hne⟩

theorem diagnostics_eq_nil_iff {l : Layout Pin} {family : Family} {interrupt activeLow : Bool} :
    (Emit.statements family interrupt activeLow l).diagnostics = [] ↔
      ∀ p ∈ l.inputs, Emit.roleFault? family p (.inputFor interrupt) = none := by
  rw [Emit.diagnostics_statements, List.flatMap_eq_nil_iff]
  simp only [Option.toList_eq_nil_iff]

/-- **A board is compiled if and only if it satisfies the conditions, and then to that unit.** -/
theorem generate_eq_ok_iff : b.generate source = .ok u ↔ Compiled b source u := by
  constructor
  · -- Every step of the chain that has given a result leaves one of the conditions behind.
    intro h
    obtain ⟨layout, hlayout, h⟩ := bind_eq_ok_iff.1 h
    have hread := Layout.read_ok hlayout
    rw [readLayout_eq hread, Except.ok.injEq] at hlayout
    subst hlayout
    obtain ⟨bus, hbus, h⟩ := bind_eq_ok_iff.1 h
    have hbuilt := Bus.build_eq_ok_iff.1 hbus
    obtain ⟨_, hexp, h⟩ := bind_eq_ok_iff.1 h
    have hexp' := checkExpanders_eq.1 (Failure.ofConfig_eq_ok_iff.1 hexp)
    rw [hbuilt.isUsable_eq] at hexp'
    rw [hbuilt.claimedPins_eq, ok_bind] at h
    obtain ⟨_, hunique, h⟩ := bind_eq_ok_iff.1 h
    have hunique' := Emit.checkUnique_eq_ok_iff.1 hunique
    obtain ⟨pins, hpins, h⟩ := bind_eq_ok_iff.1 h
    rw [Emit.layout_eq (sound_pins hread) (sublist_unique hunique')] at hpins
    cases hrag : Emit.raggedFault? b.pins with
    | some e => simp [hrag] at hpins
    | none =>
      simp only [hrag, Except.ok.injEq] at hpins
      obtain ⟨_, hcheck, h⟩ := bind_eq_ok_iff.1 h
      have hclean := check_eq_ok_iff.1 (Failure.ofConfig_eq_ok_iff.1 hcheck)
      have hcapable := diagnostics_eq_nil_iff.1 (hpins ▸ hclean pins (by simp))
      rw [Emit.statements_eq_ofLines hcapable] at hpins
      cases h
      exact ⟨hread, hbuilt, hexp', hunique', hrag, hcapable, hpins.symm, rfl, rfl, rfl⟩
  · -- The conditions let the chain through, step by step.
    rintro ⟨hread, hbuilt, hexp, hunique, hrag, hcapable, hpins, hname, hfamily, hsource⟩
    have hstatements : Emit.statements b.family b.keys.interrupt b.keys.activeLow b.pins =
        Emit.ofLines b.family b.keys.activeLow (Emit.lines b.keys.interrupt b.pins) :=
      Emit.statements_eq_ofLines hcapable
    have hlayout : Emit.layout b.family b.pins b.keys.interrupt b.keys.activeLow = .ok u.pins := by
      rw [Emit.layout_eq (sound_pins hread) (sublist_unique hunique), hrag, hstatements, ← hpins]
    have hexp' : checkExpanders u.bus b.pins.toList = .ok () :=
      checkExpanders_eq.2 (by rwa [hbuilt.isUsable_eq])
    have hcheck : Fragment.check [u.bus, u.pins] = .ok () := by
      refine check_eq_ok_iff.2 fun f hf => ?_
      rcases List.mem_cons.1 hf with rfl | hf
      · exact hbuilt.diagnostics_eq
      · rw [List.mem_singleton.1 hf, hpins, ← hstatements]
        exact diagnostics_eq_nil_iff.2 hcapable
    have hunique' : Emit.checkUnique (Bus.pins b.family b.bus ++ b.pins.toList) = .ok () :=
      Emit.checkUnique_eq_ok_iff.2 hunique
    obtain ⟨name, family, bus, pins, file⟩ := u
    simp only at hname hfamily hsource
    subst hname hfamily hsource
    simp only [generate, readLayout_eq hread, ok_bind, Bus.build_eq_ok_iff.2 hbuilt, hexp',
      hbuilt.claimedPins_eq, hunique', hlayout, hcheck, Failure.ofConfig, pure_eq_ok]

theorem Compiled.isSound (h : Compiled b source u) : Emit.IsSound b.pins := sound_pins h.read

/-- The lines for the pins of a compiled board are the texts of those for its layout. -/
theorem Compiled.lines_eq (h : Compiled b source u) : u.pins.lines =
    (Emit.lines b.keys.interrupt b.pins).map (PinLine.text b.family b.keys.activeLow) := by
  rw [h.pins_eq]
  rfl

theorem Compiled.bindings_eq (h : Compiled b source u) : u.pins.bindings =
    (Emit.lines b.keys.interrupt b.pins).map PinLine.name := by
  rw [h.pins_eq]
  rfl

theorem Compiled.areNamed (h : Compiled b source u) :
    Pin.AreNamed b.family (b.busPins ++ b.pins.toList) := by
  intro name i hmem
  rcases List.mem_append.1 hmem with hbus | hkeys
  · exact h.bus.areNamed name i hbus
  · rw [pins, Layout.toList_map] at hkeys
    obtain ⟨v, hv, hp⟩ := List.mem_map.1 hkeys
    obtain ⟨raw, rfl, hs⟩ := Pin.read_eq_ok_iff.1 (read_ofEntry (h.read v hv))
    exact (hp ▸ hs).number?

theorem Compiled.isReady_lines (h : Compiled b source u) :
    ∀ x ∈ Emit.lines b.keys.interrupt b.pins, x.IsReady b.family := by
  rintro x hx name pin role wrap rfl
  obtain ⟨hsound, hmem, hrole⟩ := Emit.bound_mem_lines h.isSound hx
  refine ⟨hsound, ?_, fun raw i hpin => ?_⟩
  · rcases hrole with rfl | ⟨rfl, hinput⟩
    · rfl
    · exact h.capable pin hinput
  · obtain rfl := List.mem_singleton.1 hpin
    exact h.areNamed raw i (List.mem_append_right _ hmem)

end Board

end BoardWiring
