import BoardWiring.Proofs.BindingNames
import BoardWiring.Proofs.ExpressionTexts
import BoardWiring.Proofs.Verdict
import Mathlib.Data.List.Basic

/-!
# External interrupt lines

On the STM32 an input that wakes the processor takes the external interrupt line of its number,
whatever its port.

* `Code.interruptLines` are the numbers of the lines that a text of the generated code names;
* `Board.interrupt_lines_distinct_iff` says that these are the numbers of the inputs, in their
  order, so that a line is taken twice if and only if two inputs have the same number.
-/

namespace BoardWiring

namespace Code

/-- How the name of a line begins in the code. -/
def interruptMark : List Char := ['p', '.', 'E', 'X', 'T', 'I']

/-- The numbers of the lines that a text names, from left to right. -/
def interruptLines : List Char → List Nat
  | [] => []
  | c :: cs =>
    if interruptMark.isPrefixOf (c :: cs) then
      Digits.number 10 ((cs.drop 5).takeWhile Char.isDigit) :: interruptLines cs
    else interruptLines cs

/-! ### Reading -/

theorem isPrefixOf_append_cut {ps xs ys : List Char} {c : Char} (hc : c ∉ ps) :
    ps.isPrefixOf (xs ++ c :: ys) = ps.isPrefixOf xs := by
  induction ps generalizing xs with
  | nil => simp
  | cons p ps ih =>
    rw [List.mem_cons, not_or] at hc
    cases xs with
    | nil => simp [List.isPrefixOf, Ne.symm hc.1]
    | cons x xs => simp [List.isPrefixOf, ih hc.2]

theorem takeWhile_append_cut {p : Char → Bool} {xs ys : List Char} {c : Char} (hc : p c = false) :
    (xs ++ c :: ys).takeWhile p = xs.takeWhile p := by
  induction xs with
  | nil => simp [hc]
  | cons x xs ih =>
    rw [List.cons_append, List.takeWhile_cons, List.takeWhile_cons, ih]

/-- A character that no name of a line has cuts the reading in two. -/
theorem interruptLines_append_cut {xs ys : List Char} {c : Char} (hc : c ∉ interruptMark)
    (hd : c.isDigit = false) :
    interruptLines (xs ++ c :: ys) = interruptLines xs ++ interruptLines ys := by
  induction xs with
  | nil =>
    have hmark : interruptMark.isPrefixOf (c :: ys) = false := @isPrefixOf_append_cut _ [] ys c hc
    simp [interruptLines, hmark]
  | cons x xs ih =>
    have hmark : interruptMark.isPrefixOf (x :: (xs ++ c :: ys)) =
        interruptMark.isPrefixOf (x :: xs) := @isPrefixOf_append_cut _ (x :: xs) ys c hc
    rw [List.cons_append, interruptLines, interruptLines, hmark]
    split_ifs with hx
    · -- The whole mark stands before the cut, so the number ends at the cut at the latest.
      have hmatched : 6 ≤ xs.length + 1 := (List.isPrefixOf_iff_prefix.1 hx).length_le
      have hlength : 5 ≤ xs.length := by omega
      rw [List.drop_append_of_le_length hlength, takeWhile_append_cut hd, ih, List.cons_append]
    · exact ih

/-- A text without an X names no line. -/
theorem interruptLines_eq_nil {cs : List Char} (h : 'X' ∉ cs) : interruptLines cs = [] := by
  induction cs with
  | nil => rfl
  | cons c cs ih =>
    have hmark : interruptMark.isPrefixOf (c :: cs) = false := by
      by_contra hpre
      rw [Bool.not_eq_false, List.isPrefixOf_iff_prefix] at hpre
      exact h (hpre.subset (by decide))
    rw [interruptLines, hmark]
    exact ih fun hx => h (List.mem_cons_of_mem _ hx)

theorem interruptLines_mark (n : Nat) {cs : List Char} (h : 'X' ∉ cs) :
    interruptLines (interruptMark ++ (Digits.write 10 n ++ '.' :: cs)) = [n] := by
  have hdigit : ∀ c ∈ Digits.write 10 n, c.isDigit = true :=
    Digits.forall_mem_write (by decide) (by decide) n
  have hread : (Digits.write 10 n ++ '.' :: cs).takeWhile Char.isDigit = Digits.write 10 n := by
    rw [List.takeWhile_append_of_pos hdigit, List.takeWhile_cons_of_neg (by decide),
      List.append_nil]
  have hrest : 'X' ∉ Digits.write 10 n ++ '.' :: cs := by
    rw [List.mem_append, List.mem_cons]
    rintro (hx | hx | hx)
    · exact absurd (hdigit _ hx) (by decide)
    · exact absurd hx (by decide)
    · exact h hx
  simp [interruptMark, interruptLines, hread, interruptLines_eq_nil hrest, Digits.number_write]

/-- A line that stands between texts without an X is the only one. -/
theorem interruptLines_between (before after : String) (hbefore : 'X' ∉ before.toList)
    (hafter : 'X' ∉ after.toList) (n : Nat) :
    interruptLines (before ++ (" p.EXTI" ++ (Digits.signed n ++ ("." ++ after)))).toList = [n] := by
  have hsigned : (Digits.signed n).toList = Digits.write 10 n := by
    simp [Digits.signed, Digits.signedIn]
  have htext : (before ++ (" p.EXTI" ++ (Digits.signed n ++ ("." ++ after)))).toList =
      before.toList ++ ' ' :: (interruptMark ++ (Digits.write 10 n ++ '.' :: after.toList)) := by
    simp only [String.toList_append, hsigned]
    rfl
  rw [htext, interruptLines_append_cut (by decide) (by decide), interruptLines_mark n hafter,
    interruptLines_eq_nil hbefore, List.nil_append]

end Code

/-! ### Texts without an X -/

section Texts

variable {family : Family} {activeLow : Bool}

theorem mem_toList_append {c : Char} {s t : String} :
    c ∈ (s ++ t).toList ↔ c ∈ s.toList ∨ c ∈ t.toList := by
  rw [String.toList_append, List.mem_append]

theorem x_not_mem_signed (i : Int) : 'X' ∉ (Digits.signed i).toList := fun hx =>
  Digits.forall_mem_signed (P := (· ≠ 'X')) (by decide) (by decide) i _ hx rfl

theorem x_not_mem_raw {raw : String} {n : Nat}
    (h : Grammar.number? family raw.toList = some n) : 'X' ∉ raw.toList :=
  Grammar.not_mem_of_number? (by decide) (by decide) (by decide) (by decide) h

theorem x_not_mem_binding {s : String} (h : Name.IsBinding s) : 'X' ∉ s.toList := fun hx =>
  absurd (h.chars _ hx) (by decide)

theorem handedOn_x : Emit.HandedOn fun s => 'X' ∉ s.toList where
  append hs ht := by
    rw [mem_toList_append, not_or]
    exact ⟨hs, ht⟩
  fixed := by decide

theorem x_not_mem_pinText (p : ExpanderPin) (role : Role) :
    'X' ∉ (Expander.pinText p role).toList := by
  have hbyte : 'X' ∉ (Digits.hexByte p.address).toList := fun hx =>
    Digits.forall_mem_hexByte (P := (· ≠ 'X')) (by decide) (by decide) _ _ hx rfl
  have hdevice : 'X' ∉ Expander.sharedBusDevice.toList := by decide
  have hclosing := handedOn_x.expanderClosing hbyte (x_not_mem_signed p.index)
  rw [Expander.pinText_eq]
  exact handedOn_x.append (handedOn_x.expanderOpening role) (handedOn_x.append hdevice hclosing)

/-- The expression for a pin names no line, unless it wakes the processor. -/
theorem x_not_mem_expression {pin : Pin} {role : Role} (hsound : pin.isSound = true)
    (hpin : ∀ name i, pin = .mcu name i → 'X' ∉ name.toList) (hrole : role ≠ .interruptInput) :
    'X' ∉ (Emit.expression .stm32 pin role activeLow).toList := by
  cases pin with
  | absent => cases hsound
  | expander p =>
    rw [Emit.expression_expander hsound hrole]
    exact x_not_mem_pinText p role
  | mcu name i =>
    cases role with
    | interruptInput => exact absurd rfl hrole
    | output => exact handedOn_x.output (hpin name i rfl)
    | input => exact handedOn_x.input (hpin name i rfl)

end Texts

/-! ### Lines of the unit -/

namespace Pin

/-- The number of the line that an input on a pin takes. -/
def line? : Pin → Option Nat
  | .mcu _ number => some number.toNat
  | _ => none

end Pin

namespace PinLine

/-- The number of the line that a line of the code takes. -/
def line? : PinLine → Option Nat
  | .bound _ pin .interruptInput _ => pin.line?
  | _ => none

variable {activeLow : Bool} {name : String}

theorem x_not_mem_statement {e : String} (hname : Name.IsBinding name) (he : 'X' ∉ e.toList) :
    'X' ∉ ("let " ++ name ++ " = " ++ e ++ ";").toList := by
  simp only [mem_toList_append, not_or]
  exact ⟨⟨⟨⟨by decide, x_not_mem_binding hname⟩, by decide⟩, he⟩, by decide⟩

theorem x_not_mem_wrap {e : String} (wrap : Emit.Wrap) (he : 'X' ∉ e.toList) :
    'X' ∉ (wrap.apply e).toList := by
  cases wrap with
  | plain => exact he
  | some =>
    unfold Emit.Wrap.apply
    simp only [mem_toList_append, not_or]
    exact ⟨⟨by decide, he⟩, by decide⟩

theorem x_not_mem_array {items : List String} (hname : Name.IsBinding name)
    (hitems : ∀ item ∈ items, Name.IsBinding item) :
    'X' ∉ ((PinLine.array name items).text .stm32 activeLow).toList := by
  have hlist : 'X' ∉ (String.intercalate ", " items).toList := by
    rw [String.toList_intercalate]
    intro hx
    rcases Name.mem_intercalate hx with hx | ⟨w, hw, hx⟩
    · exact absurd hx (by decide)
    · obtain ⟨item, hitem, rfl⟩ := List.mem_map.1 hw
      exact x_not_mem_binding (hitems item hitem) hx
  refine x_not_mem_statement hname ?_
  unfold PinLine.value
  simp only [mem_toList_append, not_or]
  exact ⟨⟨by decide, hlist⟩, by decide⟩

theorem interruptLines_wake {raw : String} {n : Nat} {wrap : Emit.Wrap}
    (hname : Name.IsBinding name) (hraw : 'X' ∉ raw.toList) (hn : n < 16) :
    Code.interruptLines ((PinLine.bound name (.mcu raw n) .interruptInput wrap).text .stm32
      activeLow).toList = [n] := by
  have hline : 0 ≤ (n : Int) ∧ (n : Int) < Emit.interruptLines := by
    unfold Emit.interruptLines
    omega
  have hcomma : ", p.EXTI" = "," ++ " p.EXTI" := rfl
  have hdot : ".degrade())" = "." ++ "degrade())" := rfl
  have hexpression : Emit.expression .stm32 (.mcu raw n) .interruptInput activeLow =
      Emit.hal .stm32 ++ "::exti::ExtiInput::new(" ++ Emit.input .stm32 raw activeLow ++ "," ++
        (" p.EXTI" ++ (Digits.signed n ++ ("." ++ "degrade())"))) := by
    simp only [Emit.expression, Emit.initialiser, Emit.interruptInput, if_pos hline]
    rw [hcomma, hdot]
    simp only [String.append_assoc]
  have hbefore : ∀ s : String, 'X' ∉ s.toList → 'X' ∉ ("let " ++ name ++ " = " ++ s ++
      Emit.hal .stm32 ++ "::exti::ExtiInput::new(" ++ Emit.input .stm32 raw activeLow ++
        ",").toList := by
    intro s hs
    simp only [mem_toList_append, not_or]
    exact ⟨⟨⟨⟨⟨⟨⟨by decide, x_not_mem_binding hname⟩, by decide⟩, hs⟩, by decide⟩, by decide⟩,
      handedOn_x.input hraw⟩, by decide⟩
  cases wrap with
  | plain =>
    have hread := Code.interruptLines_between _ ("degrade())" ++ ";") (hbefore "" (by decide))
      (by decide) n
    rw [← hread]
    simp only [text, PinLine.name, value, Emit.Wrap.apply, hexpression, String.append_assoc,
      String.empty_append]
  | some =>
    have hread := Code.interruptLines_between _ ("degrade())" ++ ")" ++ ";")
      (hbefore "Some(" (by decide)) (by decide) n
    rw [← hread]
    simp only [text, PinLine.name, value, Emit.Wrap.apply, hexpression, String.append_assoc]

/-- A line of the code names the line that it takes, and no other. -/
theorem interruptLines_text {x : PinLine} (hx : x.IsNamed) (hready : x.IsReady .stm32) :
    Code.interruptLines (x.text .stm32 activeLow).toList = x.line?.toList := by
  obtain ⟨hname, hitems⟩ := hx
  cases x with
  | empty name =>
    have hnone : 'X' ∉ "None".toList := by decide
    exact Code.interruptLines_eq_nil (x_not_mem_statement hname hnone)
  | array name items => exact Code.interruptLines_eq_nil (x_not_mem_array hname hitems)
  | bound name pin role wrap =>
    obtain ⟨hsound, hcapable, hnamed⟩ := hready name pin role wrap rfl
    have hraw : ∀ raw i, pin = .mcu raw i → 'X' ∉ raw.toList := by
      rintro raw i rfl
      obtain ⟨n, -, hn⟩ := hnamed raw i List.mem_cons_self
      exact x_not_mem_raw hn
    by_cases hrole : role = .interruptInput
    · subst hrole
      cases pin with
      | absent => cases hsound
      | expander p => cases hcapable
      | mcu raw i =>
        obtain ⟨n, rfl, hn⟩ := hnamed raw i List.mem_cons_self
        exact interruptLines_wake hname (hraw raw n rfl) (Emit.lt_of_capable hcapable)
    · have hnone : (PinLine.bound name pin role wrap).line? = none := by
        cases role with
        | interruptInput => exact absurd rfl hrole
        | output => rfl
        | input => rfl
      rw [hnone]
      exact Code.interruptLines_eq_nil (x_not_mem_statement hname
        (x_not_mem_wrap wrap (x_not_mem_expression hsound hraw hrole)))

end PinLine

namespace Emit

/-- The inputs of a layout take their lines in order. -/
theorem filterMap_line?_lines (l : Layout Pin) :
    (lines true l).filterMap PinLine.line? = l.inputs.filterMap Pin.line? := by
  cases l with
  | matrix rows cols =>
    have hrows : (matrixLines "input_pins" rows .interruptInput).filterMap PinLine.line? =
        rows.filterMap Pin.line? := by
      rw [matrixLines, List.filterMap_append, List.filterMap_map]
      exact List.append_nil _
    have hcols : (matrixLines "output_pins" cols .output).filterMap PinLine.line? = [] := by
      rw [List.filterMap_eq_nil_iff]
      intro x hx
      rcases List.mem_append.1 hx with hx | hx
      · obtain ⟨p, -, rfl⟩ := List.mem_map.1 hx
        rfl
      · rw [List.mem_singleton.1 hx]
        rfl
    change (matrixLines "input_pins" rows .interruptInput ++
      matrixLines "output_pins" cols .output).filterMap PinLine.line? = rows.filterMap Pin.line?
    rw [List.filterMap_append, hrows, hcols, List.append_nil]
  | grid rows =>
    have hrow : ∀ ps row, (rowLines true ps row).filterMap PinLine.line? =
        ps.filterMap Pin.line? := by
      intro ps row
      have hcell : ∀ q : Pin × Nat, (cellLine true q.1 row q.2).line? = q.1.line? := by
        intro q
        unfold cellLine
        split_ifs with habsent
        · rw [habsent]
          rfl
        · rfl
      have hcells : ps.zipIdx.filterMap (fun q => (cellLine true q.1 row q.2).line?) =
          (ps.zipIdx.map Prod.fst).filterMap Pin.line? := by
        rw [List.filterMap_map]
        exact List.filterMap_congr fun q _ => hcell q
      rw [List.zipIdx_map_fst] at hcells
      rw [rowLines, List.filterMap_append, List.filterMap_map, ← hcells]
      exact List.append_nil _
    have hrows : (rows.zipIdx.flatMap fun r => rowLines true r.1 r.2).filterMap PinLine.line? =
        rows.flatten.filterMap Pin.line? := by
      simp only [List.filterMap_flatMap, hrow]
      rw [← List.flatMap_map Prod.fst fun ps : List Pin => ps.filterMap Pin.line?,
        List.zipIdx_map_fst, List.filterMap_flatten, List.flatMap_def]
    rw [lines, List.filterMap_append, hrows]
    exact List.append_nil _

end Emit

namespace Bus

theorem x_not_mem_expanderStatements (address : Int) :
    ∀ line ∈ (expanderStatements address).lines, 'X' ∉ line.toList := by
  have hlevel : ∀ level : Bool, 'X' ∉ (Expander.level level).toList := by decide
  have hdevice : 'X' ∉ Expander.sharedBusDevice.toList := by decide
  unfold expanderStatements Expander.bringUp
  split_ifs
  · simp only [Fragment.ofLines, List.forall_mem_cons, List.not_mem_nil, false_implies,
      implies_true, and_true, mem_toList_append, not_or]
    exact ⟨⟨⟨⟨⟨⟨⟨⟨⟨by decide, hdevice⟩, by decide⟩, hlevel _⟩, by decide⟩, hlevel _⟩, by decide⟩,
      hlevel _⟩, by decide⟩, by decide, by decide⟩
  · exact fun _ hline => by cases hline

theorem Built.x_not_mem {s : BusSettings} {shared : Bool} {bus : Fragment}
    (h : Built .stm32 s shared bus) : ∀ line ∈ bus.lines, 'X' ∉ line.toList := by
  cases h with
  | disabled => exact fun _ hline => by cases hline
  | unsupported _ hfamily => cases hfamily
  | constructed _ _ settings =>
    rename_i p _ _ _ _
    obtain ⟨hsda, hscl, -⟩ := plan_eq_ok_iff.1 settings
    have hpin : ∀ {v : Value} {q : Pin}, Pin.readOnChip .stm32 v = .ok q →
        'X' ∉ ("    p." ++ q.text ++ ",").toList := by
      intro v q hread
      obtain ⟨raw, n, rfl, hn⟩ := Pin.named_of_readOnChip hread
      simp only [mem_toList_append, not_or]
      exact ⟨⟨by decide, x_not_mem_raw hn⟩, by decide⟩
    have hfrequency : 'X' ∉ ("    ::embassy_stm32::time::Hertz(" ++ Digits.signed p.frequency ++
        " * 1000),").toList := by
      simp only [mem_toList_append, not_or]
      exact ⟨⟨by decide, x_not_mem_signed _⟩, by decide⟩
    have hconstruct : ∀ line ∈ construct .stm32 p, 'X' ∉ line.toList := by
      simp only [construct, List.forall_mem_cons, List.not_mem_nil, false_implies, implies_true,
        and_true]
      exact ⟨by decide, by decide, hpin hscl, hpin hsda, hfrequency, by decide, by decide⟩
    have hsharing : 'X' ∉ Expander.sharedBusStatement.toList := by decide
    intro line hline
    rw [lines_statements, List.mem_append, List.mem_append] at hline
    rcases hline with hline | hline | hline
    · exact hconstruct line hline
    · split_ifs at hline
      · exact List.mem_singleton.1 hline ▸ hsharing
      · cases hline
    · split_ifs at hline
      · exact x_not_mem_expanderStatements s.address line hline
      · cases hline

end Bus

namespace Board

variable {b : Board} {source : String} {u : GeneratedUnit}

/-- The lines that the unit takes are those of its inputs, in their order. -/
theorem Compiled.interruptLines_eq (h : Compiled b source u) (hfamily : b.family = .stm32)
    (hwake : b.keys.interrupt = true) :
    (u.lines.flatMap fun line => Code.interruptLines line.toList) =
      b.pins.inputs.filterMap Pin.line? := by
  have hbus : (u.bus.lines.flatMap fun line => Code.interruptLines line.toList) = [] :=
    List.flatMap_eq_nil_iff.2 fun line hline =>
      Code.interruptLines_eq_nil ((hfamily ▸ h.bus).x_not_mem line hline)
  have hpins : u.pins.lines = (Emit.lines b.keys.interrupt b.pins).map
      (PinLine.text .stm32 b.keys.activeLow) := by
    rw [h.lines_eq, hfamily]
  have htexts : ((Emit.lines b.keys.interrupt b.pins).map
        (PinLine.text .stm32 b.keys.activeLow)).flatMap
          (fun line => Code.interruptLines line.toList) =
      (Emit.lines b.keys.interrupt b.pins).filterMap PinLine.line? := by
    rw [List.flatMap_map, List.filterMap_eq_flatMap_toList]
    exact List.flatMap_congr fun x hx =>
      PinLine.interruptLines_text (h.isNamed_lines x hx) (hfamily ▸ h.isReady_lines x hx)
  rw [GeneratedUnit.lines, List.flatMap_append, hbus, List.nil_append, hpins, htexts, hwake,
    Emit.filterMap_line?_lines]

theorem Compiled.input_cases (h : Compiled b source u) (hfamily : b.family = .stm32)
    (hwake : b.keys.interrupt = true) {p : Pin} (hp : p ∈ b.pins.inputs) (hpresent : p ≠ .absent) :
    ∃ (name : String) (n : Nat), p = .mcu name n ∧ n < 16 := by
  have hcapable : Emit.capabilityFault? .stm32 p = none := by
    have hfault := h.capable p hp
    rwa [hwake, hfamily] at hfault
  have hmem := Layout.mem_toList_of_mem_inputs hp
  cases p with
  | absent => exact absurd rfl hpresent
  | expander e => cases hcapable
  | mcu name i =>
    obtain ⟨n, rfl, -⟩ := h.areNamed name i (List.mem_append_right _ hmem)
    exact ⟨name, n, rfl, Emit.lt_of_capable hcapable⟩

/-- **Every input takes the line of its number, and no line is taken twice if and only if no two
inputs have the same number.** -/
theorem interrupt_lines_distinct_iff (h : b.generate source = .ok u) (hfamily : b.family = .stm32)
    (hwake : b.keys.interrupt = true) :
    (u.lines.flatMap fun line => Code.interruptLines line.toList) =
        b.pins.inputs.filterMap Pin.line? ∧
      (∀ p ∈ b.pins.inputs, p ≠ .absent → ∃ (name : String) (n : Nat), p = .mcu name n ∧ n < 16) ∧
      ((u.lines.flatMap fun line => Code.interruptLines line.toList).Nodup ↔
        b.pins.inputs.Pairwise fun p q =>
          ∀ m, p.line? = some m → ∀ n, q.line? = some n → m ≠ n) := by
  have hcompiled := generate_eq_ok_iff.1 h
  have hlines := hcompiled.interruptLines_eq hfamily hwake
  refine ⟨hlines, fun p hp hpresent => hcompiled.input_cases hfamily hwake hp hpresent, ?_⟩
  rw [hlines, List.Nodup, List.pairwise_filterMap]

/-- A board with one input for each key, on three ports. -/
def keypad : Board where
  name := "keypad"
  chip := "STM32F411CE"
  family := .stm32
  keys := ⟨.grid [[.text "PA0", .text "_"], [.text "PB3", .text "PC13"]], true, true⟩
  bus := .none

/-- Its inputs take three lines. -/
theorem interrupt_lines_keypad :
    ∃ u, keypad.generate "" = .ok u ∧
      (u.lines.flatMap fun line => Code.interruptLines line.toList) = [0, 3, 13] := by
  obtain ⟨u, hu⟩ := exists_unit (b := keypad) (by decide) rfl ""
  have hinputs : keypad.pins.inputs.filterMap Pin.line? = [0, 3, 13] := rfl
  exact ⟨u, hu, (interrupt_lines_distinct_iff hu rfl rfl).1.trans hinputs⟩

/-- A board with two rows of the same number on two ports. -/
def crossed : Board where
  name := "crossed"
  chip := "STM32F411CE"
  family := .stm32
  keys := ⟨.matrix [.text "PA0", .text "PB0"] [.text "PA1"], true, true⟩
  bus := .none

/-- It is compiled, and both rows take one line. -/
theorem interrupt_line_shared_crossed :
    ∃ u, crossed.generate "" = .ok u ∧
      ¬(u.lines.flatMap fun line => Code.interruptLines line.toList).Nodup := by
  obtain ⟨u, hu⟩ := exists_unit (b := crossed) (by decide) rfl ""
  have hinputs : crossed.pins.inputs.filterMap Pin.line? = [0, 0] := rfl
  refine ⟨u, hu, ?_⟩
  rw [(generate_eq_ok_iff.1 hu).interruptLines_eq rfl rfl, hinputs]
  decide

end Board

end BoardWiring
