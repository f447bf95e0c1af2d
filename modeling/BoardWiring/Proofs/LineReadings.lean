import BoardWiring.Proofs.CodeReading
import BoardWiring.Proofs.ExpressionTexts
import Mathlib.Data.List.TakeWhile

/-!
# What the lines of a unit read as

The lines for the pins and for the bus are read (`Code.read`), whatever pins, numbers and flags
stand in their gaps.  What stands there is quiet, and the rest of a line is fixed text.

* `isQuiet_raw` and `isQuiet_expression` say that the names of pins and the expressions for them
  do not speak of the bus, and `busWords_pinText` that a pin of the expander borrows it once;
* `PinLine.read_text` says that a line for a pin reads as what it does (`PinLine.reading`);
* `Bus.Built.exists_readings` says what the lines for a bus read as.
-/

namespace BoardWiring

open Code

/-! ### Quiet texts -/

section Texts

variable {family : Family} {activeLow : Bool} {name : String}

theorem isQuiet_signed (i : Int) : isQuiet (Digits.signed i) = true :=
  isQuiet_of_forall <|
    Digits.forall_mem_signed (P := fun c => c ≠ '&' ∧ c ≠ 'i' ∧ c ≠ 'm') (by decide) (by decide) i

theorem isQuiet_hexByte (i : Int) : isQuiet (Digits.hexByte i) = true :=
  isQuiet_of_forall <|
    Digits.forall_mem_hexByte (P := fun c => c ≠ '&' ∧ c ≠ 'i' ∧ c ≠ 'm') (by decide) (by decide) i

theorem isPathChar_of_digitValue? {c : Char} {v : Nat} (h : Text.digitValue? c = some v) :
    isPathChar c = true := by
  have hdigit : Text.isDecimalDigit c = true := by simp [Text.isDecimalDigit, h]
  by_cases hascii : 128 ≤ c.toNat
  · simp [isPathChar, isNameChar, hdigit, hascii]
  · have hdecimal := Text.isDigit_of_digitValue? h (by omega)
    simp [isPathChar, isNameChar, Name.isAlphanum_eq, hdecimal]

theorem isPathChar_of_port {c : Char} (h : 'A' ≤ c ∧ c ≤ 'K') : isPathChar c = true := by
  simp [isPathChar, isNameChar, Pin.isAlphanum_of_port h]

theorem isQuiet_raw {raw : String} {n : Nat} (h : Grammar.number? family raw.toList = some n) :
    isQuiet raw = true := by
  have hnamed := Grammar.named_of_number? h
  have hpath : ∀ c ∈ Grammar.body raw.toList, isPathChar c = true :=
    hnamed.forall_mem (P := fun c => isPathChar c = true) (List.all_eq_true.1 (by decide))
      (fun _ hc => isPathChar_of_port hc) fun _ _ hv => isPathChar_of_digitValue? hv
  have hfirst : ∃ c cs, Grammar.body raw.toList = c :: cs ∧ (c = 'P' ∨ c = 'g') := by
    generalize Grammar.body raw.toList = cs at hnamed
    cases hnamed with
    | stm32 => exact ⟨_, _, rfl, Or.inl rfl⟩
    | nrf52 => exact ⟨_, _, rfl, Or.inl rfl⟩
    | rp2040 => exact ⟨_, _, rfl, Or.inl rfl⟩
    | esp32 => exact ⟨_, _, rfl, Or.inr rfl⟩
  obtain ⟨c, cs, hbody, hc⟩ := hfirst
  -- The first letter takes the run into the word, and the other characters keep it there.
  have hscan : ∀ t, settled (some t) = true →
      scan t (Grammar.body raw.toList) = some .inside := by
    intro t ht
    have hstep : step t c = some .inside := by
      cases t with
      | start => rcases hc with rfl | rfl <;> decide
      | inside => rcases hc with rfl | rfl <;> decide
      | i => cases ht
      | m => cases ht
    rw [hbody] at hpath ⊢
    rw [scan, List.foldlM_cons, hstep]
    exact scan_inside fun d hd => hpath d (List.mem_cons_of_mem _ hd)
  rw [isQuiet_iff]
  intro t ht
  rcases Grammar.body_cases raw.toList with hraw | hraw
  · rw [hraw, hscan t ht]
    rfl
  · rw [hraw, scan_append, hscan t ht]
    rfl

theorem handedOn_isQuiet : Emit.HandedOn fun s => isQuiet s = true where
  append := isQuiet_append
  fixed := List.all_eq_true.1 (by decide)

theorem isQuiet_expression {number : Int} {role : Role} (h : isQuiet name = true) :
    isQuiet (Emit.expression family (.mcu name number) role activeLow) = true := by
  cases role with
  | output => exact handedOn_isQuiet.output h
  | input => exact handedOn_isQuiet.input h
  | interruptInput =>
    cases family with
    | stm32 =>
      by_cases hline : 0 ≤ number ∧ number < Emit.interruptLines
      · simp only [Emit.expression, Emit.initialiser, Emit.interruptInput, if_pos hline,
          String.append_assoc]
        exact isQuiet_append (handedOn_isQuiet.hal .stm32) <| isQuiet_append (by decide) <|
          isQuiet_append (handedOn_isQuiet.input h) <| isQuiet_append (by decide) <|
          isQuiet_append (isQuiet_signed number) (by decide)
      · rw [Emit.expression_of_no_line hline]
        decide
    | nrf52 => exact @Emit.HandedOn.input _ .nrf52 activeLow name handedOn_isQuiet h
    | rp2040 => exact @Emit.HandedOn.input _ .rp2040 activeLow name handedOn_isQuiet h
    | esp32 => exact @Emit.HandedOn.input _ .esp32 activeLow name handedOn_isQuiet h

/-- A text that borrows the shared bus once. -/
theorem busWords_device {before after : String} (hbefore : isQuiet before = true)
    (hafter : isQuiet after = true) :
    busWords (before ++ (Expander.sharedBusDevice ++ after)).toList = ["&i2c_bus".toList] := by
  have htext : (before ++ (Expander.sharedBusDevice ++ after)).toList =
      (before ++ "::embedded_hal_bus::i2c::RefCellDevice::new").toList ++
        '(' :: ("&i2c_bus".toList ++ ')' :: after.toList) := by
    have hdevice : Expander.sharedBusDevice =
        "::embedded_hal_bus::i2c::RefCellDevice::new" ++ ("(" ++ ("&i2c_bus" ++ ")")) := by decide
    rw [hdevice]
    simp only [String.toList_append, List.append_assoc]
    exact congrArg (before.toList ++ ·) (congrArg (_ ++ ·) rfl)
  have hquiet : busWords (before ++ "::embedded_hal_bus::i2c::RefCellDevice::new").toList = [] :=
    busWords_of_isQuiet (isQuiet_append hbefore (by decide))
  have hborrow : busWords "&i2c_bus".toList = ["&i2c_bus".toList] := by decide
  rw [htext, busWords_append_cut (by decide), busWords_append_cut (by decide), hquiet,
    busWords_of_isQuiet hafter, hborrow]
  rfl

theorem busWords_pinText (before after : String) (hbefore : isQuiet before = true)
    (hafter : isQuiet after = true) (p : ExpanderPin) (role : Role) :
    busWords (before ++ (Expander.pinText p role ++ after)).toList = ["&i2c_bus".toList] := by
  have hopening := isQuiet_append hbefore (handedOn_isQuiet.expanderOpening role)
  have hclosing := isQuiet_append
    (handedOn_isQuiet.expanderClosing (isQuiet_hexByte p.address) (isQuiet_signed p.index)) hafter
  rw [← busWords_device hopening hclosing, Expander.pinText_eq]
  simp only [String.append_assoc]

end Texts

/-! ### Lines for the pins -/

namespace PinLine

variable {family : Family} {activeLow : Bool}

/-- The words of a line that speak of the bus. -/
def borrows : PinLine → List (List Char)
  | .bound _ (.expander _) _ _ => ["&i2c_bus".toList]
  | _ => []

/-- The names that a line lists, if it computes an array. -/
def listed : PinLine → Option (List (List Char))
  | .array _ items => some (items.map String.toList)
  | _ => none

/-- What a line reads as. -/
def reading (x : PinLine) : Reading := ⟨some x.name.toList, x.borrows, x.listed⟩

theorem head?_ne {s t : String} {c : Char} (h : s.toList.head? = some c) (hc : c ≠ '[') :
    (s ++ t).toList.head? ≠ some '[' := by
  rw [Text.head?_append h]
  simpa using hc

theorem head?_hal (family : Family) : (Emit.hal family).toList.head? = some ':' := by
  cases family <;> decide

theorem head?_output (name : String) :
    (Emit.output family name activeLow).toList.head? ≠ some '[' := by
  unfold Emit.output
  cases family with
  | esp32 =>
    simp only [String.append_assoc]
    exact head?_ne (c := '\x7b') (by decide) (by decide)
  | _ =>
    simp only [String.append_assoc]
    exact head?_ne (head?_hal _) (by decide)

theorem head?_input (name : String) :
    (Emit.input family name activeLow).toList.head? ≠ some '[' := by
  unfold Emit.input
  cases family with
  | esp32 =>
    simp only [String.append_assoc]
    exact head?_ne (c := '\x7b') (by decide) (by decide)
  | _ =>
    simp only [String.append_assoc]
    exact head?_ne (head?_hal _) (by decide)

theorem head?_expression {pin : Pin} {role : Role} (hsound : pin.isSound = true)
    (hcapable : Emit.roleFault? family pin role = none) :
    (Emit.expression family pin role activeLow).toList.head? ≠ some '[' := by
  cases pin with
  | absent => cases hsound
  | expander p =>
    have hrole : role ≠ .interruptInput := by
      rintro rfl
      cases hcapable
    have hopening : (Expander.opening role).toList.head? = some ':' := by
      cases role <;> decide
    rw [Emit.expression_expander hsound hrole, Expander.pinText_eq]
    exact head?_ne hopening (by decide)
  | mcu name number =>
    cases role with
    | output => exact head?_output name
    | input => exact head?_input name
    | interruptInput =>
      cases family with
      | stm32 =>
        by_cases hline : 0 ≤ number ∧ number < Emit.interruptLines
        · simp only [Emit.expression, Emit.initialiser, Emit.interruptInput, if_pos hline,
            String.append_assoc]
          exact head?_ne (head?_hal _) (by decide)
        · rw [Emit.expression_of_no_line hline]
          decide
      | nrf52 => exact @head?_input .nrf52 activeLow name
      | rp2040 => exact @head?_input .rp2040 activeLow name
      | esp32 => exact @head?_input .esp32 activeLow name

/-- The words that an expression for a pin has for the bus. -/
theorem busWords_bound {name : String} {pin : Pin} {role : Role} (wrap : Emit.Wrap)
    (hsound : pin.isSound = true) (hcapable : Emit.roleFault? family pin role = none)
    (hnamed : Pin.AreNamed family [pin]) :
    busWords (wrap.apply (Emit.expression family pin role activeLow)).toList =
      (PinLine.bound name pin role wrap).borrows := by
  cases pin with
  | absent => cases hsound
  | expander p =>
    have hrole : role ≠ .interruptInput := by
      rintro rfl
      cases hcapable
    rw [Emit.expression_expander hsound hrole]
    cases wrap with
    | plain =>
      have hwords := busWords_pinText "" "" (by decide) (by decide) p role
      rwa [String.empty_append, String.append_empty] at hwords
    | some =>
      have hwords := busWords_pinText "Some(" ")" (by decide) (by decide) p role
      rwa [← String.append_assoc] at hwords
  | mcu raw number =>
    obtain ⟨n, -, hn⟩ := hnamed raw number List.mem_cons_self
    have hquiet : isQuiet (Emit.expression family (.mcu raw number) role activeLow) = true :=
      isQuiet_expression (isQuiet_raw hn)
    cases wrap with
    | plain => exact busWords_of_isQuiet hquiet
    | some =>
      exact busWords_of_isQuiet (isQuiet_append (isQuiet_append (by decide) hquiet) (by decide))

theorem root_eq_self {w : List Char} (h : ∀ c ∈ w, isNameChar c = true) : root w = w := by
  have hdrop : w.dropWhile (· == '&') = w := by
    cases w with
    | nil => rfl
    | cons c w =>
      have hc : (c == '&') = false := by
        rw [beq_eq_false_iff_ne]
        rintro rfl
        exact absurd (h _ List.mem_cons_self) (by decide)
      rw [List.dropWhile_cons, hc]
      rfl
  rw [root, hdrop, List.takeWhile_eq_self_iff]
  exact h

theorem root_binding_not_mem {name : String} (h : Name.IsBinding name) :
    root name.toList ∉ busNames := by
  rw [root_eq_self fun c hc => isNameChar_of_isBindingChar (h.chars c hc)]
  have hreserved : ∀ n ∈ busNames, n.take 2 ∈ Name.reserved := by decide
  exact fun hmem => h.apart (hreserved _ hmem)

theorem isPathChar_of_isBindingChar {c : Char} (h : Name.isBindingChar c = true) :
    isPathChar c = true := by
  simp [isPathChar, isNameChar_of_isBindingChar h]

theorem words_items {items : List String} (h : ∀ item ∈ items, Name.IsBinding item) :
    words ("[" ++ String.intercalate ", " items ++ "]").toList = items.map String.toList := by
  refine words_list fun item hitem => ⟨List.ne_nil_of_length_pos ?_, fun c hc =>
    isPathChar_of_isBindingChar ((h item hitem).chars c hc)⟩
  have hlong := (h item hitem).long
  omega

/-- **A line reads as what it does.** -/
theorem read_text {x : PinLine} (hx : x.IsNamed) (hready : x.IsReady family) :
    read (x.text family activeLow) = x.reading := by
  obtain ⟨hname, hitems⟩ := hx
  rw [text, read_statement hname, reading]
  cases x with
  | empty name =>
    have hwords : busWords "None".toList = [] := busWords_of_isQuiet (by decide)
    have hhead : "None".toList.head? ≠ some '[' := by decide
    rw [value, hwords, if_neg hhead]
    rfl
  | array name items =>
    have hwords : words ("[" ++ String.intercalate ", " items ++ "]").toList =
        items.map String.toList :=
      words_items hitems
    have hbus : busWords ("[" ++ String.intercalate ", " items ++ "]").toList = [] := by
      rw [busWords, hwords, List.filter_eq_nil_iff]
      intro w hw
      obtain ⟨item, hitem, rfl⟩ := List.mem_map.1 hw
      simpa using root_binding_not_mem (hitems item hitem)
    have hhead : ("[" ++ String.intercalate ", " items ++ "]").toList.head? = some '[' := by
      rw [String.append_assoc]
      exact Text.head?_append (by decide)
    rw [value, hbus, hhead, if_pos rfl, hwords]
    rfl
  | bound name pin role wrap =>
    obtain ⟨hsound, hcapable, hnamed⟩ := hready name pin role wrap rfl
    have hhead : (wrap.apply (Emit.expression family pin role activeLow)).toList.head? ≠
        some '[' := by
      cases wrap with
      | plain => exact head?_expression hsound hcapable
      | some =>
        rw [Emit.Wrap.apply, String.append_assoc]
        exact head?_ne (c := 'S') (by decide) (by decide)
    rw [value, if_neg hhead, busWords_bound wrap hsound hcapable hnamed]
    rfl

end PinLine

/-! ### Lines for the bus -/

namespace Bus

variable {family : Family} {s : BusSettings} {shared : Bool} {bus : Fragment}

/-- What a line reads as that introduces nothing and uses nothing. -/
def silentReading : Reading := ⟨none, [], none⟩

/-- What the line reads as that introduces the bus. -/
def busReading : Reading := ⟨some "i2c".toList, [], none⟩

/-- What the line reads as that makes the bus shared. -/
def sharingReading : Reading := ⟨some "i2c_bus".toList, ["i2c".toList], none⟩

/-- What the lines read as that bring up the expander. -/
def expanderReadings : List Reading :=
  [⟨some "mcp23x17".toList, ["&i2c_bus".toList], none⟩,
    ⟨some "ge".toList, ["mcp23x17.split".toList], none⟩, silentReading]

/-- Lines that introduce the bus at most, and use nothing. -/
def IsConstruction (rs : List Reading) : Prop := ∀ r ∈ rs, r = silentReading ∨ r = busReading

theorem isConstruction_nil : IsConstruction [] := fun _ hr => by cases hr

theorem read_sharing : read Expander.sharedBusStatement = sharingReading := by
  decide

theorem read_newExpander (a0 a1 a2 : Bool) :
    read ("let mut mcp23x17 = ::port_expander::Mcp23x17::new_mcp23017(" ++
        Expander.sharedBusDevice ++ ", " ++ Expander.level a0 ++ ", " ++ Expander.level a1 ++
        ", " ++ Expander.level a2 ++ ");") =
      ⟨some "mcp23x17".toList, ["&i2c_bus".toList], none⟩ := by
  have hopen : "let mut mcp23x17 = ::port_expander::Mcp23x17::new_mcp23017(" =
      "let mut mcp23x17 " ++ ("=" ++ " ::port_expander::Mcp23x17::new_mcp23017(") := rfl
  have hlevel : ∀ a, isQuiet (Expander.level a) = true := by decide
  have hafter : isQuiet (", " ++ (Expander.level a0 ++ (", " ++ (Expander.level a1 ++ (", " ++
      (Expander.level a2 ++ ");")))))) = true :=
    isQuiet_append (by decide) <| isQuiet_append (hlevel a0) <| isQuiet_append (by decide) <|
      isQuiet_append (hlevel a1) <| isQuiet_append (by decide) <|
      isQuiet_append (hlevel a2) (by decide)
  have hwords := @busWords_device " ::port_expander::Mcp23x17::new_mcp23017(" _ (by decide) hafter
  have hline : ∀ s : String, ("let mut mcp23x17 " ++ ("=" ++ s)).toList =
      "let mut mcp23x17 ".toList ++ '=' :: s.toList := fun s => by
    rw [String.toList_append, String.toList_append]
    rfl
  have hname : ∀ s : String, introduced? ("let mut mcp23x17 " ++ ("=" ++ s)).toList =
      some "mcp23x17".toList := fun s => by
    rw [hline]
    rfl
  have hvalue : ∀ s : String, [' ', '['].isPrefixOf
      (" ::port_expander::Mcp23x17::new_mcp23017(" ++ s).toList = false := fun s => by
    rw [String.toList_append]
    rfl
  rw [hopen]
  simp only [String.append_assoc]
  rw [read_of_split (hline _) (by decide) (hname _), hwords, hvalue]
  rfl

theorem map_read_expanderStatements (h : ExpanderPin.isAddress s.address = true) :
    (expanderStatements s.address).lines.map read = expanderReadings := by
  have hsplit : read "let ge = mcp23x17.split();" =
      ⟨some "ge".toList, ["mcp23x17.split".toList], none⟩ := by
    decide
  have hlog : read "::defmt::info!(\"MCP23017 initialized\");" = silentReading := by
    decide
  simp only [expanderReadings, expanderStatements, Expander.bringUp, h, if_true, Fragment.ofLines,
    List.map_cons, List.map_nil, read_newExpander, hsplit, hlog]

theorem isQuiet_pin {v : Value} {q : Pin} (h : Pin.readOnChip family v = .ok q) :
    isQuiet q.text = true := by
  obtain ⟨raw, n, rfl, hn⟩ := Pin.named_of_readOnChip h
  exact isQuiet_raw hn

/-- An indented line is silent if the text in its gap is quiet. -/
theorem read_gap {head gap closing : String} (opening : String) (hhead : head = "    " ++ opening)
    (hopening : isQuiet opening = true) (hgap : isQuiet gap = true)
    (hclosing : isQuiet closing = true) : read (head ++ gap ++ closing) = silentReading := by
  rw [hhead, String.append_assoc, String.append_assoc]
  exact read_indented <| isQuiet_append hopening <| isQuiet_append hgap hclosing

/-- The statements that construct the bus introduce it and use nothing. -/
theorem isConstruction_construct {p : Plan} (h : plan family s = .ok p) :
    IsConstruction ((construct family p).map read) := by
  obtain ⟨hsda, hscl, -⟩ := plan_eq_ok_iff.1 h
  have hsda' := isQuiet_pin hsda
  have hscl' := isQuiet_pin hscl
  have hfrequency := isQuiet_signed p.frequency
  unfold IsConstruction
  cases family with
  | esp32 => exact fun _ hr => by cases hr
  | stm32 =>
    have hpin : ∀ q : Pin, isQuiet q.text = true →
        read ("    p." ++ q.text ++ ",") = silentReading := fun q hq =>
      read_gap "p." rfl (by decide) hq (by decide)
    have hclock : read ("    ::embassy_stm32::time::Hertz(" ++ Digits.signed p.frequency ++
        " * 1000),") = silentReading :=
      read_gap "::embassy_stm32::time::Hertz(" rfl (by decide) hfrequency (by decide)
    simp only [construct, List.map_cons, List.map_nil, List.forall_mem_cons]
    exact ⟨Or.inr (by decide), Or.inl (by decide), Or.inl (hpin _ hscl'),
      Or.inl (hpin _ hsda'), Or.inl hclock, Or.inl (by decide), Or.inl (by decide),
      fun _ hr => by cases hr⟩
  | nrf52 =>
    have hclock : read ("    config.frequency = ::embassy_nrf::twim::Frequency::K" ++
        Digits.signed p.frequency ++ ";") = silentReading :=
      read_gap "config.frequency = ::embassy_nrf::twim::Frequency::K" rfl (by decide)
        hfrequency (by decide)
    have hpins : read ("    ::embassy_nrf::twim::Twim::new(p.TWISPI0, Irqs, p." ++ p.sda.text ++
        ", p." ++ p.scl.text ++ ", config)") = silentReading := by
      have hgap : isQuiet (p.sda.text ++ (", p." ++ p.scl.text)) = true :=
        isQuiet_append hsda' <| isQuiet_append (by decide) hscl'
      have hread : read ("    ::embassy_nrf::twim::Twim::new(p.TWISPI0, Irqs, p." ++
          (p.sda.text ++ (", p." ++ p.scl.text)) ++ ", config)") = silentReading :=
        read_gap "::embassy_nrf::twim::Twim::new(p.TWISPI0, Irqs, p." rfl (by decide) hgap
          (by decide)
      rw [← hread]
      simp only [String.append_assoc]
    simp only [construct, List.map_cons, List.map_nil, List.forall_mem_cons]
    exact ⟨Or.inr (by decide), Or.inl (by decide), Or.inl hclock,
      Or.inl (by decide), Or.inl hpins, Or.inl (by decide),
      Or.inl (by decide +kernel), fun _ hr => by cases hr⟩
  | rp2040 =>
    have hclock : read ("    config.frequency = " ++ Digits.signed p.frequency ++ " * 1000;") =
        silentReading :=
      read_gap "config.frequency = " rfl (by decide) hfrequency (by decide)
    have hpins : read ("    ::embassy_rp::i2c::I2c::new_blocking(p.I2C0, p." ++ p.scl.text ++
        ", p." ++ p.sda.text ++ ", config)") = silentReading := by
      have hgap : isQuiet (p.scl.text ++ (", p." ++ p.sda.text)) = true :=
        isQuiet_append hscl' <| isQuiet_append (by decide) hsda'
      have hread : read ("    ::embassy_rp::i2c::I2c::new_blocking(p.I2C0, p." ++
          (p.scl.text ++ (", p." ++ p.sda.text)) ++ ", config)") = silentReading :=
        read_gap "::embassy_rp::i2c::I2c::new_blocking(p.I2C0, p." rfl (by decide) hgap (by decide)
      rw [← hread]
      simp only [String.append_assoc]
    simp only [construct, List.map_cons, List.map_nil, List.forall_mem_cons]
    exact ⟨Or.inr (by decide), Or.inl (by decide), Or.inl hclock, Or.inl hpins,
      Or.inl (by decide), fun _ hr => by cases hr⟩

theorem busReading_mem (h : isSupported family = true) (p : Plan) :
    busReading ∈ (construct family p).map read := by
  cases family with
  | esp32 => cases h
  | stm32 => exact List.mem_cons.2 (Or.inl (by decide))
  | nrf52 => exact List.mem_cons.2 (Or.inl (by decide))
  | rp2040 => exact List.mem_cons.2 (Or.inl (by decide))

theorem isConstruction_standIn (h : isSupported family = false) :
    IsConstruction ((standIn family).lines.map read) := by
  cases family with
  | esp32 =>
    unfold IsConstruction
    simp only [standIn, List.map_cons, List.map_nil, List.forall_mem_cons]
    exact ⟨Or.inl (by decide), Or.inr (by decide), fun _ hr => by cases hr⟩
  | stm32 => cases h
  | nrf52 => cases h
  | rp2040 => cases h

theorem Built.isAddress (h : Built family s shared bus)
    (hworks : (s.enabled && isSupported family) = true) (hx : s.expander = true) :
    ExpanderPin.isAddress s.address = true := by
  cases h with
  | disabled off => simp [off] at hworks
  | unsupported _ hfam => simp [hfam] at hworks
  | constructed _ _ _ _ address => exact address hx

/-- The bus works and is made shared. -/
def isShared (family : Family) (s : BusSettings) (shared : Bool) : Bool :=
  s.enabled && isSupported family && (s.expander || shared)

/-- The bus works and has an expander. -/
def hasExpander (family : Family) (s : BusSettings) : Bool :=
  s.enabled && isSupported family && s.expander

theorem isShared_of_hasExpander (h : hasExpander family s = true) :
    isShared family s shared = true := by
  obtain ⟨hworks, hx⟩ := Bool.and_eq_true_iff.1 h
  rw [isShared, hworks, hx]
  rfl

/-- **The lines for a bus construct it, make it shared and bring up the expander, in this
order**, as far as it works and is asked to. -/
theorem Built.exists_lines (h : Built family s shared bus) :
    ∃ lines, IsConstruction (lines.map read) ∧
      ((s.enabled && isSupported family) = true → busReading ∈ lines.map read) ∧
      bus.lines = lines ++
        ((if isShared family s shared then [Expander.sharedBusStatement] else []) ++
          if hasExpander family s then (expanderStatements s.address).lines else []) := by
  unfold isShared hasExpander
  cases h with
  | disabled off =>
    refine ⟨[], isConstruction_nil, fun hworks => ?_, ?_⟩
    · simp [off] at hworks
    · simp [off, Fragment.empty]
  | unsupported _ hfam =>
    refine ⟨_, isConstruction_standIn hfam, fun hworks => ?_, ?_⟩
    · simp [hfam] at hworks
    · simp [hfam]
  | constructed on hfam settings =>
    rename_i p _ _
    refine ⟨_, isConstruction_construct settings, fun _ => busReading_mem hfam p, ?_⟩
    rw [lines_statements, on, hfam]
    simp only [Bool.true_and, Bool.and_self]

theorem Built.exists_readings (h : Built family s shared bus) :
    ∃ rs, IsConstruction rs ∧ ((s.enabled && isSupported family) = true → busReading ∈ rs) ∧
      bus.lines.map read = rs ++ ((if isShared family s shared then [sharingReading] else []) ++
        if hasExpander family s then expanderReadings else []) := by
  obtain ⟨lines, hlines, hbus, heq⟩ := h.exists_lines
  refine ⟨_, hlines, hbus, ?_⟩
  -- The three runs of lines are read one by one.
  rw [heq, List.map_append, List.map_append]
  congr 2
  · split_ifs
    · rw [List.map_singleton, read_sharing]
    · rfl
  · split_ifs with hexpander
    · have hparts := Bool.and_eq_true_iff.1 hexpander
      exact map_read_expanderStatements (h.isAddress hparts.1 hparts.2)
    · rfl

end Bus

end BoardWiring
