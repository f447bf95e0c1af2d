import BoardWiring.Proofs.ExchangedWords
import BoardWiring.Proofs.Verdict

/-!
# What the flags of a board change

A board has two flags for its keys.  One says that a pressed key pulls its input low: it is read in
the word for the level or the pull of a pin of the chip, and nowhere else.  The other says that the
inputs wake the processor: it changes the inputs on such pins alone, and nothing on a family that
makes them like plain inputs.

* `Layout.subjects` tells what each line for a layout is about, and `Emit.subject_lines` says that
  the lines are about that;
* `PinLine.text_flip` says what the first flag does to a line, and `PinLine.text_served` what the
  second does;
* `Board.generate_flags` says what becomes of the unit of a board under another flag.
-/

namespace BoardWiring

/-! ### Lines -/

/-- What a line for a layout is about: a pin that serves as an input, one that serves as an output,
or an array of names.  A place of a grid has an input, which may be absent. -/
inductive Subject where
  | input (pin : Pin)
  | output (pin : Pin)
  | array
  deriving DecidableEq

namespace Subject

/-- A pin of the chip. -/
def isChip : Subject → Bool
  | .input (.mcu _ _) | .output (.mcu _ _) => true
  | _ => false

/-- An input on a pin of the chip. -/
def isChipInput : Subject → Bool
  | .input (.mcu _ _) => true
  | _ => false

/-- What becomes of a line for the keys of a board if a pressed key pulls its input the other
way. -/
def flipped (x : Subject) (line : String) : String :=
  if x.isChip then Code.exchanged line else line

end Subject

/-- What the lines for a layout are about, in their order. -/
def Layout.subjects : Layout Pin → List Subject
  | .matrix rows cols => (rows.map .input ++ [.array]) ++ (cols.map .output ++ [.array])
  | .grid rows => (rows.flatMap fun row => row.map .input ++ [.array]) ++ [.array]

namespace PinLine

/-- What a line is about. -/
def subject : PinLine → Subject
  | .bound _ pin .output _ => .output pin
  | .bound _ pin _ _ => .input pin
  | .empty _ => .input .absent
  | .array _ _ => .array

theorem idle?_of_isChip {activeLow : Bool} {x : PinLine} (h : x.subject.isChip = true) :
    x.idle? activeLow = some activeLow := by
  cases x with
  | empty _ => cases h
  | array _ _ => cases h
  | bound _ pin role _ =>
    cases pin with
    | mcu _ _ => rfl
    | expander _ => cases role <;> cases h
    | absent => cases role <;> cases h

/-- A line whose input, if it binds one, serves in another role. -/
def served (role : Role) : PinLine → PinLine
  | .bound name pin .output wrap => .bound name pin .output wrap
  | .bound name pin _ wrap => .bound name pin role wrap
  | .empty name => .empty name
  | .array name items => .array name items

@[simp] theorem name_served (role : Role) (x : PinLine) : (x.served role).name = x.name := by
  cases x with
  | bound _ _ role' _ => cases role' <;> rfl
  | empty _ => rfl
  | array _ _ => rfl

end PinLine

namespace Emit

open Code

variable {family : Family} {interrupt : Bool} {l : Layout Pin}

/-- **The lines for a layout are about its subjects.** -/
theorem subject_lines (interrupt : Bool) (l : Layout Pin) :
    (lines interrupt l).map PinLine.subject = l.subjects := by
  have hcell : ∀ p row col, (cellLine interrupt p row col).subject = .input p := by
    intro p row col
    unfold cellLine
    split_ifs with habsent
    · rw [habsent]
      rfl
    · cases interrupt <;> rfl
  have hrow : ∀ ps row, (rowLines interrupt ps row).map PinLine.subject =
      ps.map .input ++ [.array] := by
    intro ps row
    have hcells : (ps.zipIdx.map fun q => cellLine interrupt q.1 row q.2).map PinLine.subject =
        (ps.zipIdx.map Prod.fst).map .input := by
      rw [List.map_map, List.map_map]
      exact List.map_congr_left fun q _ => hcell q.1 row q.2
    rw [rowLines, List.map_append, hcells, List.zipIdx_map_fst]
    rfl
  cases l with
  | matrix rows cols =>
    have hrows : (matrixLines "input_pins" rows (.inputFor interrupt)).map PinLine.subject =
        rows.map .input ++ [.array] := by
      rw [matrixLines, List.map_append, List.map_map]
      cases interrupt <;> rfl
    have hcols : (matrixLines "output_pins" cols .output).map PinLine.subject =
        cols.map .output ++ [.array] := by
      rw [matrixLines, List.map_append, List.map_map]
      rfl
    rw [lines, List.map_append, hrows, hcols, Layout.subjects]
  | grid rows =>
    have hgrid : (rows.zipIdx.flatMap fun r => rowLines interrupt r.1 r.2).map PinLine.subject =
        (rows.zipIdx.map Prod.fst).flatMap fun row => row.map .input ++ [.array] := by
      rw [List.map_flatMap, List.flatMap_map]
      exact List.flatMap_congr fun r _ => hrow r.1 r.2
    rw [lines, List.map_append, hgrid, List.zipIdx_map_fst]
    rfl

theorem lines_served (interrupt interrupt' : Bool) (l : Layout Pin) :
    lines interrupt' l = (lines interrupt l).map (PinLine.served (.inputFor interrupt')) := by
  have hcell : ∀ p row col, (cellLine interrupt p row col).served (.inputFor interrupt') =
      cellLine interrupt' p row col := by
    intro p row col
    unfold cellLine
    split_ifs with habsent
    · rfl
    · cases interrupt <;> rfl
  have hrow : ∀ ps row, (rowLines interrupt ps row).map (PinLine.served (.inputFor interrupt')) =
      rowLines interrupt' ps row := by
    intro ps row
    rw [rowLines, rowLines, List.map_append, List.map_map]
    congr 1
    exact List.map_congr_left fun q _ => hcell q.1 row q.2
  cases l with
  | matrix rows cols =>
    rw [lines, lines, List.map_append, matrixLines, matrixLines, matrixLines, List.map_append,
      List.map_append, List.map_map, List.map_map]
    cases interrupt <;> rfl
  | grid rows =>
    rw [lines, lines, List.map_append, List.map_flatMap]
    congr 1
    exact List.flatMap_congr fun r _ => (hrow r.1 r.2).symm

theorem name_of_bound {name : String} {pin : Pin} {role : Role} {wrap : Wrap}
    (h : .bound name pin role wrap ∈ lines interrupt l) :
    name = pin.name ∨ ∃ row col, name = cellName pin row col := by
  have hmatrix : ∀ {array ps role'}, .bound name pin role wrap ∈ matrixLines array ps role' →
      name = pin.name := by
    intro array ps role' h
    rcases List.mem_append.1 h with h | h
    · obtain ⟨p, -, hbound⟩ := List.mem_map.1 h
      cases hbound
      rfl
    · cases List.mem_singleton.1 h
  cases l with
  | matrix rows cols =>
    rcases List.mem_append.1 h with h | h
    · exact Or.inl (hmatrix h)
    · exact Or.inl (hmatrix h)
  | grid rows =>
    rcases List.mem_append.1 h with h | h
    · obtain ⟨r, -, h⟩ := List.mem_flatMap.1 h
      rcases List.mem_append.1 h with h | h
      · obtain ⟨q, -, hbound⟩ := List.mem_map.1 h
        unfold cellLine at hbound
        split_ifs at hbound
        cases hbound
        exact Or.inr ⟨_, _, rfl⟩
      · cases List.mem_singleton.1 h
    · cases List.mem_singleton.1 h

theorem isMute_bound {name raw : String} {number : Int} {n : Nat} {role : Role} {wrap : Wrap}
    (h : .bound name (.mcu raw number) role wrap ∈ lines interrupt l)
    (hn : Grammar.number? family raw.toList = some n) : IsMute name := by
  have hown : IsMute (Pin.mcu raw number).name := Name.isMute_ofText hn
  have hline : IsMute "_" := by
    unfold IsMute
    decide
  rcases name_of_bound h with rfl | ⟨row, col, rfl⟩
  · exact hown
  · exact (((hown.append hline).append (Name.isMute_decimal row)).append hline).append
      (Name.isMute_decimal col)

end Emit

namespace PinLine

open Code

variable {family : Family} {activeLow interrupt : Bool} {l : Layout Pin} {x : PinLine}

/-- **Under the other flag, a line for a pin of the chip has its words exchanged, and all other
lines stay as they are.** -/
theorem text_flip (hx : x ∈ Emit.lines interrupt l) (hready : x.IsReady family) :
    x.text family (!activeLow) = x.subject.flipped (x.text family activeLow) := by
  cases x with
  | empty name => rfl
  | array name items => rfl
  | bound name pin role wrap =>
    obtain ⟨hsound, hrole, hnamed⟩ := hready name pin role wrap rfl
    cases pin with
    | absent => cases hsound
    | expander p =>
      have hserves : role ≠ .interruptInput := by
        rintro rfl
        cases hrole
      have hsubject : (bound name (.expander p) role wrap).subject.isChip = false := by
        cases role <;> rfl
      rw [Subject.flipped, hsubject, if_neg Bool.false_ne_true]
      unfold text value
      simp only [Emit.expression_expander hsound hserves]
    | mcu raw number =>
      obtain ⟨n, -, hn⟩ := hnamed raw number List.mem_cons_self
      have hsubject : (bound name (.mcu raw number) role wrap).subject.isChip = true := by
        cases role <;> rfl
      have hexpression := @Emit.becomes_expression family activeLow role raw number n hn hrole
      have hvalue : Becomes ((bound name (.mcu raw number) role wrap).value family activeLow)
          ((bound name (.mcu raw number) role wrap).value family (!activeLow)) := by
        cases wrap with
        | plain => exact hexpression
        | some =>
          exact ((becomes_ofList (by decide)).append hexpression).append
            (becomes_ofList (by decide))
      have hline : Becomes ((bound name (.mcu raw number) role wrap).text family activeLow)
          ((bound name (.mcu raw number) role wrap).text family (!activeLow)) := by
        unfold text
        simp only [String.append_assoc]
        exact (becomes_ofList (by decide)).append <|
          Becomes.mute (Emit.isMute_bound hx hn) (Text.head?_append (c := ' ') (by decide))
            (by decide) <| (becomes_ofList (by decide)).append <|
              hvalue.append (becomes_ofList (by decide))
      rw [Subject.flipped, hsubject, if_pos rfl, hline.exchanged_eq]

/-- **Whether the inputs wake the processor changes the lines for inputs on pins of the chip alone,
and on one family only.** -/
theorem text_served (hready : x.IsReady family)
    (hready' : (x.served (.inputFor interrupt)).IsReady family)
    (h : x.subject.isChipInput = false ∨ family ≠ .stm32) :
    (x.served (.inputFor interrupt)).text family activeLow = x.text family activeLow := by
  cases x with
  | empty name => rfl
  | array name items => rfl
  | bound name pin role wrap =>
    by_cases hout : role = .output
    · rw [hout]
      rfl
    have hserved : (bound name pin role wrap).served (.inputFor interrupt) =
        bound name pin (.inputFor interrupt) wrap := by
      cases role with
      | output => exact absurd rfl hout
      | input => rfl
      | interruptInput => rfl
    have hexpression : Emit.expression family pin (.inputFor interrupt) activeLow =
        Emit.expression family pin role activeLow := by
      obtain ⟨hsound, hrole, -⟩ := hready name pin role wrap rfl
      obtain ⟨-, hrole', -⟩ := hready' name pin _ wrap hserved
      cases pin with
      | absent => cases hsound
      | expander p =>
        -- Neither input wakes the processor, so both are plain inputs.
        cases role with
        | output => exact absurd rfl hout
        | interruptInput => cases hrole
        | input =>
          cases interrupt with
          | true => cases hrole'
          | false => rfl
      | mcu raw number =>
        rcases h with hsubject | hfamily
        · cases role with
          | output => exact absurd rfl hout
          | input => cases hsubject
          | interruptInput => cases hsubject
        · -- Elsewhere an input that wakes the processor is made like any other.
          have hplain : ∀ role', role' ≠ .output →
              Emit.expression family (.mcu raw number) role' activeLow =
                Emit.input family raw activeLow := by
            intro role' hrole'
            cases role' with
            | output => exact absurd rfl hrole'
            | input => rfl
            | interruptInput =>
              cases family with
              | stm32 => exact absurd rfl hfamily
              | nrf52 => rfl
              | rp2040 => rfl
              | esp32 => rfl
          have hinput : Role.inputFor interrupt ≠ .output := by
            cases interrupt <;> decide
          rw [hplain _ hinput, hplain role hout]
    rw [hserved]
    unfold text value
    simp only [hexpression, PinLine.name]

end PinLine

/-! ### Boards -/

namespace Board

variable {b : Board} {source : String} {u v : GeneratedUnit} {interrupt : Bool}

/-- The board with another flag for pressed keys that pull their inputs low. -/
def withActiveLow (b : Board) (activeLow : Bool) : Board :=
  { b with keys := { b.keys with activeLow := activeLow } }

/-- The board with another flag for inputs that wake the processor. -/
def withInterrupt (b : Board) (interrupt : Bool) : Board :=
  { b with keys := { b.keys with interrupt := interrupt } }

namespace Compiled

/-- The statements for the pins are their lines and names, and carry no error. -/
theorem pins_eq_ofLines (h : Compiled b source u) :
    u.pins = Fragment.ofLines u.pins.lines u.pins.bindings := by
  rw [h.pins_eq]
  rfl

/-- The first flag reaches the lines of the pins alone. -/
theorem withActiveLow (h : Compiled b source u) (activeLow : Bool) :
    Compiled (b.withActiveLow activeLow) source { u with
      pins := Emit.ofLines b.family activeLow (Emit.lines b.keys.interrupt b.pins) } :=
  ⟨h.read, h.bus, h.expanders, h.unique, h.rectangular, h.capable, rfl, h.name_eq, h.family_eq,
    h.source_eq⟩

theorem lines_flip (h : Compiled b source u) :
    (Emit.lines b.keys.interrupt b.pins).map (PinLine.text b.family !b.keys.activeLow) =
      List.zipWith Subject.flipped b.pins.subjects u.pins.lines := by
  rw [h.lines_eq, ← Emit.subject_lines b.keys.interrupt, List.zipWith_map, List.zipWith_self]
  exact List.map_congr_left fun x hx => PinLine.text_flip hx (h.isReady_lines x hx)

theorem exists_line (h : Compiled b source u) {k : Nat} {x : Subject}
    (hx : b.pins.subjects[k]? = some x) :
    ∃ y, (Emit.lines b.keys.interrupt b.pins)[k]? = some y ∧ y.subject = x ∧
      u.pins.lines[k]? = some (y.text b.family b.keys.activeLow) := by
  rw [← Emit.subject_lines b.keys.interrupt, List.getElem?_map, Option.map_eq_some_iff] at hx
  obtain ⟨y, hy, rfl⟩ := hx
  refine ⟨y, hy, rfl, ?_⟩
  rw [h.lines_eq, List.getElem?_map, hy]
  rfl

theorem flipped_eq_iff (h : Compiled b source u) {k : Nat} {x : Subject} {line : String}
    (hx : b.pins.subjects[k]? = some x) (hline : u.pins.lines[k]? = some line) :
    x.flipped line = line ↔ x.isChip = false := by
  obtain ⟨y, hy, rfl, htext⟩ := h.exists_line hx
  obtain rfl : y.text b.family b.keys.activeLow = line := Option.some.inj (htext.symm.trans hline)
  constructor
  · intro hsame
    have hmem := List.mem_of_getElem? hy
    have hready := h.isReady_lines y hmem
    have hnamed := h.isNamed_lines y hmem
    rw [← PinLine.text_flip hmem hready] at hsame
    have hidle := (PinLine.text_inj hnamed hnamed hready hready hsame).2
    by_contra hchip
    rw [Bool.not_eq_false] at hchip
    rw [PinLine.idle?_of_isChip hchip, PinLine.idle?_of_isChip hchip] at hidle
    cases hlow : b.keys.activeLow <;> simp [hlow] at hidle
  · intro hchip
    rw [Subject.flipped, hchip, if_neg Bool.false_ne_true]

/-- The second flag reaches the lines for inputs on pins of the chip alone, and none on all families
but one. -/
theorem lines_interrupt (h : Compiled b source u)
    (h' : Compiled (b.withInterrupt interrupt) source v) {x : PinLine}
    (hx : x ∈ Emit.lines b.keys.interrupt b.pins)
    (hfree : x.subject.isChipInput = false ∨ b.family ≠ .stm32) :
    (x.served (.inputFor interrupt)).text b.family b.keys.activeLow =
      x.text b.family b.keys.activeLow := by
  have hserved : x.served (.inputFor interrupt) ∈ Emit.lines interrupt b.pins := by
    rw [Emit.lines_served b.keys.interrupt interrupt]
    exact List.mem_map_of_mem hx
  exact PinLine.text_served (h.isReady_lines x hx) (h'.isReady_lines _ hserved) hfree

theorem lines_eq_served (h' : Compiled (b.withInterrupt interrupt) source v) : v.pins.lines =
    (Emit.lines b.keys.interrupt b.pins).map fun x =>
      (x.served (.inputFor interrupt)).text b.family b.keys.activeLow := by
  have hlines : v.pins.lines = (Emit.lines interrupt b.pins).map
      (PinLine.text b.family b.keys.activeLow) := h'.lines_eq
  rw [hlines, Emit.lines_served b.keys.interrupt interrupt, List.map_map]
  rfl

theorem bindings_interrupt (h : Compiled b source u)
    (h' : Compiled (b.withInterrupt interrupt) source v) : v.pins.bindings = u.pins.bindings := by
  have hserved : v.pins.bindings = (Emit.lines interrupt b.pins).map PinLine.name :=
    h'.bindings_eq
  rw [hserved, h.bindings_eq, Emit.lines_served b.keys.interrupt interrupt, List.map_map]
  exact List.map_congr_left fun x _ => PinLine.name_served _ x

theorem bus_interrupt (h : Compiled b source u)
    (h' : Compiled (b.withInterrupt interrupt) source v) : v.bus = u.bus := by
  have hbus := Bus.build_eq_ok_iff.2 h.bus
  have hbus' : Bus.build b.family b.bus (b.pins.toList.any Pin.isExpander) = .ok v.bus :=
    Bus.build_eq_ok_iff.2 h'.bus
  exact Except.ok.inj (hbus'.symm.trans hbus)

end Compiled

/-- **The flags of a board change only what they should.**  Flipping the flag for pressed keys that
pull their inputs low gives the same unit, but for the lines of pins of the chip: there the words
for levels, pulls and setters are exchanged.  Two boards that differ only in the flag for inputs
that wake the processor give units that differ only in the lines for inputs on pins of the chip, and
do not differ at all unless the chip is an STM32. -/
theorem generate_flags (h : b.generate source = .ok u) :
    u.pins.lines.length = b.pins.subjects.length ∧
    (b.withActiveLow !b.keys.activeLow).generate source =
      .ok { u with pins := { u.pins with
        lines := List.zipWith Subject.flipped b.pins.subjects u.pins.lines } } ∧
    (∀ (k : Nat) (x : Subject) line, b.pins.subjects[k]? = some x → u.pins.lines[k]? = some line →
      (x.flipped line = line ↔ x.isChip = false)) ∧
    ∀ interrupt v, (b.withInterrupt interrupt).generate source = .ok v →
      v.bus = u.bus ∧ v.bindings = u.bindings ∧ v.pins.lines.length = u.pins.lines.length ∧
      (∀ (k : Nat) (x : Subject), b.pins.subjects[k]? = some x → x.isChipInput = false →
        v.pins.lines[k]? = u.pins.lines[k]?) ∧
      (b.family ≠ .stm32 → v = u) := by
  have hc := generate_eq_ok_iff.1 h
  refine ⟨?_, ?_, fun k x line => hc.flipped_eq_iff, fun interrupt v hv => ?_⟩
  · rw [hc.lines_eq, List.length_map, ← Emit.subject_lines b.keys.interrupt, List.length_map]
  · have hflipped := generate_eq_ok_iff.2 (hc.withActiveLow !b.keys.activeLow)
    rw [hflipped, ← hc.lines_flip, hc.pins_eq]
    rfl
  · have hc' := generate_eq_ok_iff.1 hv
    have hbus := hc.bus_interrupt hc'
    have hpins := hc.bindings_interrupt hc'
    refine ⟨hbus, ?_, ?_, ?_, fun hfamily => ?_⟩
    · rw [GeneratedUnit.bindings, GeneratedUnit.bindings, hbus, hpins]
    · rw [hc'.lines_eq_served, hc.lines_eq, List.length_map, List.length_map]
    · intro k x hx hfree
      obtain ⟨y, hy, rfl, htext⟩ := hc.exists_line hx
      rw [htext, hc'.lines_eq_served, List.getElem?_map, hy, Option.map_some,
        hc.lines_interrupt hc' (List.mem_of_getElem? hy) (Or.inl hfree)]
    · have hlines : v.pins.lines = u.pins.lines := by
        rw [hc'.lines_eq_served, hc.lines_eq]
        exact List.map_congr_left fun x hx => hc.lines_interrupt hc' hx (Or.inr hfamily)
      have hsame : v.pins = u.pins := by
        rw [hc'.pins_eq_ofLines, hc.pins_eq_ofLines, hlines, hpins]
      calc v = ⟨v.boardName, v.family, v.bus, v.pins, v.source⟩ := rfl
        _ = ⟨b.name, b.family, u.bus, u.pins, source⟩ := by
          rw [hc'.name_eq, hc'.family_eq, hbus, hsame, hc'.source_eq]
          rfl
        _ = u := by rw [← hc.name_eq, ← hc.family_eq, ← hc.source_eq]

/-- A board with a key on the chip and one on the expander. -/
def pair : Board where
  name := "pair"
  chip := "STM32F411CE"
  family := .stm32
  keys := ⟨.matrix [.text "PA0"] [.text "PA1", .text "MI20_A0"], false, false⟩
  bus := ⟨true, .text "PB7", .text "PB6", .int 400, true, 0x20⟩

/-- One flag exchanges the words in its lines, and the other leaves the line for the output. -/
theorem generate_flags_pair :
    ∃ u v w, pair.generate "" = .ok u ∧ (pair.withActiveLow true).generate "" = .ok v ∧
      (pair.withInterrupt true).generate "" = .ok w ∧
      pair.pins.subjects = [.input (.mcu "PA0" 0), .array, .output (.mcu "PA1" 1),
        .output (.expander ⟨0x20, .a, 0⟩), .array] ∧
      v.bus = u.bus ∧ v.bindings = u.bindings ∧
      v.pins.lines = List.zipWith Subject.flipped pair.pins.subjects u.pins.lines ∧
      w.bus = u.bus ∧ w.bindings = u.bindings ∧ w.pins.lines[2]? = u.pins.lines[2]? := by
  obtain ⟨u, hu⟩ := exists_unit (b := pair) (by decide) rfl ""
  obtain ⟨w, hw⟩ := exists_unit (b := pair.withInterrupt true) (by decide) rfl ""
  have hsubjects : pair.pins.subjects = [.input (.mcu "PA0" 0), .array, .output (.mcu "PA1" 1),
      .output (.expander ⟨0x20, .a, 0⟩), .array] := rfl
  obtain ⟨-, hflipped, -, hinterrupt⟩ := generate_flags hu
  obtain ⟨hbus, hbindings, -, hlines, -⟩ := hinterrupt true w hw
  refine ⟨u, _, w, hu, hflipped, hw, hsubjects, rfl, rfl, rfl, hbus, hbindings, ?_⟩
  exact hlines 2 (.output (.mcu "PA1" 1)) (by rw [hsubjects]; rfl) rfl

end Board

end BoardWiring
