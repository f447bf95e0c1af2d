import BoardWiring.Proofs.ExpressionForms
import BoardWiring.Proofs.Scope

/-!
# The generated code determines the wiring

Two boards of one family whose units have the same lines are wired in the same way.  The lines for
the pins tell the pins and the arrays among them the form of the layout; the lines for the bus
tell its pins, its frequency and its expander.

* `Emit.filterMap_pin?_lines` says that the lines for a layout bind its pins, and
  `Layout.eq_of_listedBy` that the arrays tell how they are arranged;
* `Bus.Built.settings_eq` says that the lines for a bus tell its settings;
* `Board.code_determines_wiring` says that the lines of a unit tell the wiring.
-/

namespace BoardWiring

/-! ### Layouts -/

/-- What the members of two lists of lines have in common is common to the lists. -/
theorem map_eq_map_of_texts {α β γ δ : Type} {f : α → γ} {g : β → γ} {s : α → δ} {t : β → δ}
    {xs : List α} {ys : List β} (hpoint : ∀ x ∈ xs, ∀ y ∈ ys, f x = g y → s x = t y)
    (h : xs.map f = ys.map g) : xs.map s = ys.map t := by
  induction xs generalizing ys with
  | nil =>
    cases ys with
    | nil => rfl
    | cons y ys => cases h
  | cons x xs ih =>
    cases ys with
    | nil => cases h
    | cons y ys =>
      obtain ⟨hhead, htail⟩ := List.cons.inj h
      rw [List.map_cons, List.map_cons, hpoint x List.mem_cons_self y List.mem_cons_self hhead,
        ih (fun x hx y hy => hpoint x (List.mem_cons_of_mem _ hx) y (List.mem_cons_of_mem _ hy))
          htail]

theorem filterMap_eq_of_map_eq {α β γ : Type} {s : α → Option γ} {t : β → Option γ} {xs : List α}
    {ys : List β} (h : xs.map s = ys.map t) : xs.filterMap s = ys.filterMap t := by
  have hid := congrArg (List.filterMap id) h
  rwa [List.filterMap_map, List.filterMap_map] at hid

namespace Emit

variable {interrupt : Bool}

theorem filterMap_pin?_matrixLines (array : String) (ps : List Pin) (role : Role) :
    (matrixLines array ps role).filterMap PinLine.pin? = ps := by
  rw [matrixLines, List.filterMap_append, List.filterMap_map]
  change ps.filterMap some ++ [] = ps
  rw [List.filterMap_some, List.append_nil]

theorem pin?_cellLine (p : Pin) (row col : Nat) : (cellLine interrupt p row col).pin? = some p := by
  unfold cellLine
  split_ifs with hp
  · rw [hp]
    rfl
  · rfl

theorem filterMap_pin?_rowLines (ps : List Pin) (row : Nat) :
    (rowLines interrupt ps row).filterMap PinLine.pin? = ps := by
  have hcells : ∀ q ∈ ps.zipIdx,
      (PinLine.pin? ∘ fun q : Pin × Nat => cellLine interrupt q.1 row q.2) q = some q.1 :=
    fun q _ => pin?_cellLine q.1 row q.2
  rw [rowLines, List.filterMap_append, List.filterMap_map, List.filterMap_congr hcells]
  change ps.zipIdx.filterMap (some ∘ Prod.fst) ++ [] = ps
  rw [List.filterMap_eq_map, List.zipIdx_map_fst, List.append_nil]

/-- **The lines for a layout bind its pins in order.** -/
theorem filterMap_pin?_lines (l : Layout Pin) :
    (lines interrupt l).filterMap PinLine.pin? = l.toList := by
  cases l with
  | matrix rows cols =>
    rw [lines, List.filterMap_append, filterMap_pin?_matrixLines, filterMap_pin?_matrixLines]
    rfl
  | grid rows =>
    rw [lines, List.filterMap_append, List.filterMap_flatMap]
    simp only [filterMap_pin?_rowLines]
    rw [List.flatMap_def, List.zipIdx_map_fst]
    exact List.append_nil _

end Emit

theorem Layout.eq_of_listedBy {arrays : List (List Char × List (List Char))}
    {bindings bindings' : List (List Char)} {l l' : Layout Pin}
    (h : Code.ListedBy arrays bindings l) (h' : Code.ListedBy arrays bindings' l')
    (hl : l.toList = l'.toList) : l = l' := by
  have happart : ∀ (xs ys : List (List Char)) as, [("input_pins".toList, xs),
      ("output_pins".toList, ys)] ≠ as ++ [("direct_pins".toList, as.map Prod.fst)] := by
    intro xs ys as heq
    -- The last array of a matrix is the one of the outputs.
    have hlast := congrArg (fun as => as.getLast?.map Prod.fst) heq
    simp only [List.getLast?_append, List.getLast?_cons_cons, List.getLast?_singleton,
      Option.some_or, Option.map_some] at hlast
    exact absurd hlast (by decide)
  cases l with
  | matrix rows cols =>
    obtain ⟨xs, ys, rfl, -, hrows, -⟩ := h
    cases l' with
    | matrix rows' cols' =>
      obtain ⟨xs', ys', heq, -, hrows', -⟩ := h'
      obtain ⟨hxs, -⟩ := List.cons.inj heq
      have hlength : rows.length = rows'.length := by
        rw [← hrows, ← hrows', (Prod.mk.inj hxs).2]
      obtain ⟨rfl, rfl⟩ := List.append_inj hl hlength
      rfl
    | grid rows' =>
      obtain ⟨as, heq, -⟩ := h'
      exact absurd heq (happart xs ys as)
  | grid rows =>
    obtain ⟨as, rfl, -, hlengths⟩ := h
    cases l' with
    | matrix rows' cols' =>
      obtain ⟨xs', ys', heq, -⟩ := h'
      exact absurd heq.symm (happart xs' ys' as)
    | grid rows' =>
      obtain ⟨as', heq, -, hlengths'⟩ := h'
      obtain ⟨rfl, -⟩ := List.append_inj' heq rfl
      -- The lengths of the arrays cut the list of pins into the rows.
      have hrows : rows = rows' := by
        rw [List.eq_iff_flatten_eq]
        exact ⟨hl, hlengths.symm.trans hlengths'⟩
      rw [hrows]

namespace Board

variable {b b' : Board} {source source' : String} {u u' : GeneratedUnit}

theorem Compiled.map_eq {α : Type} {s t : PinLine → α} (h : Compiled b source u)
    (h' : Compiled b' source' u') (hfamily : b.family = b'.family)
    (hpins : u.pins.lines = u'.pins.lines)
    (hpoint : ∀ x y : PinLine, x.pin? = y.pin? →
      x.idle? b.keys.activeLow = y.idle? b'.keys.activeLow → s x = t y) :
    (Emit.lines b.keys.interrupt b.pins).map s = (Emit.lines b'.keys.interrupt b'.pins).map t := by
  rw [h.lines_eq, h'.lines_eq, ← hfamily] at hpins
  refine map_eq_map_of_texts (fun x hx y hy htext => ?_) hpins
  have hready' := h'.isReady_lines y hy
  rw [← hfamily] at hready'
  -- Equal lines at one place bind one pin, whatever names they introduce.
  obtain ⟨hpin, hidle⟩ := PinLine.text_inj (h.isNamed_lines x hx) (h'.isNamed_lines y hy)
    (h.isReady_lines x hx) hready' htext
  exact hpoint x y hpin hidle

theorem Compiled.pins_eq_of_lines (h : Compiled b source u) (h' : Compiled b' source' u')
    (hfamily : b.family = b'.family) (hpins : u.pins.lines = u'.pins.lines) : b.pins = b'.pins := by
  have hflat : b.pins.toList = b'.pins.toList := by
    have hmap := h.map_eq h' hfamily hpins (s := PinLine.pin?) (t := PinLine.pin?)
      fun x y hpin _ => hpin
    rw [← Emit.filterMap_pin?_lines b.pins, ← Emit.filterMap_pin?_lines b'.pins]
    exact filterMap_eq_of_map_eq hmap
  have hreadings := congrArg (List.map Code.read) hpins
  rw [h.map_read_pins, h'.map_read_pins] at hreadings
  have harrays : Emit.arrays (Emit.lines b.keys.interrupt b.pins) =
      Emit.arrays (Emit.lines b'.keys.interrupt b'.pins) :=
    congrArg (List.filterMap Code.Reading.array?) hreadings
  have hlisted := @Emit.listedBy_lines b.keys.interrupt b.pins
  rw [harrays] at hlisted
  exact Layout.eq_of_listedBy hlisted (Emit.listedBy_lines b'.pins) hflat

/-- The lines for the pins tell the level, if one of the pins is one of the chip. -/
theorem Compiled.activeLow_eq_of_lines (h : Compiled b source u) (h' : Compiled b' source' u')
    (hfamily : b.family = b'.family) (hpins : u.pins.lines = u'.pins.lines) {name : String}
    {number : Int} (hmem : .mcu name number ∈ b.pins.toList) :
    b.keys.activeLow = b'.keys.activeLow := by
  have hidle : ∀ (i a : Bool) (l : Layout Pin), (Emit.lines i l).filterMap (PinLine.idle? a) =
      l.toList.filterMap (Pin.idle? a) := by
    intro i a l
    rw [← @Emit.filterMap_pin?_lines i l, List.filterMap_filterMap]
    rfl
  have hmap := h.map_eq h' hfamily hpins (s := PinLine.idle? b.keys.activeLow)
    (t := PinLine.idle? b'.keys.activeLow) fun x y _ hidle => hidle
  have hlevels := filterMap_eq_of_map_eq hmap
  rw [hidle, hidle] at hlevels
  -- The level of the pin stands among those of the other board, which are all one level.
  have hlevel : b.keys.activeLow ∈ b'.pins.toList.filterMap (Pin.idle? b'.keys.activeLow) := by
    rw [← hlevels]
    exact List.mem_filterMap.2 ⟨_, hmem, rfl⟩
  obtain ⟨q, -, hq⟩ := List.mem_filterMap.1 hlevel
  cases q with
  | mcu _ _ => exact (Option.some.inj hq).symm
  | expander _ => cases hq
  | absent => cases hq

end Board

/-! ### Buses -/

namespace Expander

theorem straps_inj {a a' : Int} (h : ExpanderPin.isAddress a = true)
    (h' : ExpanderPin.isAddress a' = true) (hstraps : straps a = straps a') : a = a' := by
  have hdistinct : ∀ k l : Fin 8,
      straps (0x20 + (k : Nat)) = straps (0x20 + (l : Nat)) → k = l := by decide
  obtain ⟨k, rfl⟩ := Pin.exists_offset h
  obtain ⟨l, rfl⟩ := Pin.exists_offset h'
  rw [hdistinct k l hstraps]

theorem level_inj {c d : Bool} {s t : String} (h : level c ++ s = level d ++ t) :
    c = d ∧ s = t := by
  have happart : ∀ c d, (level c).toList <+: (level d).toList → c = d := by decide
  exact Text.word_inj happart h

theorem bringUp_inj {a a' : Int} {lines : List String} (h : bringUp a = .ok lines)
    (h' : bringUp a' = .ok lines) : a = a' := by
  unfold bringUp at h h'
  split_ifs at h with ha
  split_ifs at h' with ha'
  simp only [Except.ok.injEq] at h h'
  rw [← h, List.cons.injEq] at h'
  have hline := h'.1
  simp only [String.append_assoc, String.append_right_inj] at hline
  -- The three levels stand one behind the other.
  obtain ⟨h0, hline⟩ := level_inj hline
  rw [String.append_right_inj] at hline
  obtain ⟨h1, hline⟩ := level_inj hline
  rw [String.append_right_inj] at hline
  obtain ⟨h2, -⟩ := level_inj hline
  exact (straps_inj ha' ha (Prod.ext h0 (Prod.ext h1 h2))).symm

end Expander

namespace Bus

variable {family : Family} {s s' : BusSettings} {shared shared' : Bool} {bus bus' : Fragment}

/-- A board has lines for a bus if and only if the bus is enabled. -/
theorem Built.isEmpty_lines (h : Built family s shared bus) :
    bus.lines.isEmpty = !s.enabled := by
  cases h with
  | disabled off =>
    rw [off]
    rfl
  | unsupported on =>
    rw [on]
    rfl
  | constructed on hfam =>
    rename_i p _ _ _
    obtain ⟨line, lines, hlines⟩ := List.exists_cons_of_ne_nil (construct_ne_nil hfam p)
    rw [lines_statements, hlines, on]
    rfl

theorem length_construct (family : Family) (p q : Plan) :
    (construct family p).length = (construct family q).length := by
  cases family <;> rfl

theorem construct_inj {p q : Plan} (hfam : isSupported family = true)
    (hp : plan family s = .ok p) (hq : plan family s' = .ok q)
    (h : construct family p = construct family q) :
    p.sda.text = q.sda.text ∧ p.scl.text = q.scl.text ∧ p.frequency = q.frequency := by
  have hcomma : ∀ {v : Value} {pin : Pin}, Pin.readOnChip family v = .ok pin →
      ',' ∉ pin.text.toList := by
    intro v pin hpin
    obtain ⟨raw, n, rfl, hn⟩ := Pin.named_of_readOnChip hpin
    exact Grammar.not_mem_of_number? (by decide) (by decide) (by decide) (by decide) hn
  obtain ⟨hsda, hscl, -⟩ := plan_eq_ok_iff.1 hp
  obtain ⟨hsda', hscl', -⟩ := plan_eq_ok_iff.1 hq
  have hstop : ∀ s, (", p." ++ s).toList.head? = some ',' := fun s => Text.head?_append (by decide)
  -- Each pin has a line of its own, or a comma ends the first of two in one line.
  cases family with
  | esp32 => cases hfam
  | stm32 =>
    simp only [construct, List.cons.injEq, String.append_left_inj, String.append_right_inj,
      and_true, true_and] at h
    obtain ⟨hscl, hsda, hfrequency⟩ := h
    exact ⟨hsda, hscl, Digits.signed_injective hfrequency⟩
  | nrf52 =>
    simp only [construct, List.cons.injEq, String.append_assoc, String.append_left_inj,
      String.append_right_inj, and_true, true_and] at h
    obtain ⟨hfrequency, hline⟩ := h
    obtain ⟨hsda, hline⟩ := Text.gap_inj (hcomma hsda) (hcomma hsda') (hstop _) (hstop _) hline
    rw [String.append_right_inj, String.append_left_inj] at hline
    exact ⟨hsda, hline, Digits.signed_injective hfrequency⟩
  | rp2040 =>
    simp only [construct, List.cons.injEq, String.append_assoc, String.append_left_inj,
      String.append_right_inj, and_true, true_and] at h
    obtain ⟨hfrequency, hline⟩ := h
    obtain ⟨hscl, hline⟩ := Text.gap_inj (hcomma hscl) (hcomma hscl') (hstop _) (hstop _) hline
    rw [String.append_right_inj, String.append_left_inj] at hline
    exact ⟨hline, hscl, Digits.signed_injective hfrequency⟩

theorem eq_of_text {v w : Value} {p q : Pin} (hp : Pin.readOnChip family v = .ok p)
    (hq : Pin.readOnChip family w = .ok q) (h : p.text = q.text) : v = w := by
  obtain ⟨raw, n, rfl, rfl, -⟩ := Pin.readOnChip_eq_ok_iff.1 hp
  obtain ⟨raw', n', rfl, rfl, -⟩ := Pin.readOnChip_eq_ok_iff.1 hq
  exact congrArg Value.text h

theorem exists_bringUp {a : Int} (h : ExpanderPin.isAddress a = true) :
    ∃ lines, Expander.bringUp a = .ok lines ∧ (expanderStatements a).lines = lines ∧
      lines.length = 3 := by
  have hlines : ∃ lines, Expander.bringUp a = .ok lines ∧ lines.length = 3 := by
    rw [Expander.bringUp, if_pos h]
    exact ⟨_, rfl, rfl⟩
  obtain ⟨lines, hbringUp, hlength⟩ := hlines
  refine ⟨lines, hbringUp, ?_, hlength⟩
  rw [expanderStatements, hbringUp]
  rfl

/-- Behind the construction of a bus there are at least three lines if it has an expander, and one
at most if it has none. -/
theorem expander_iff_length (ha : s.expander = true → ExpanderPin.isAddress s.address = true) :
    s.expander = true ↔ 3 ≤
      ((if s.expander || shared then [Expander.sharedBusStatement] else []) ++
        if s.expander then (expanderStatements s.address).lines else []).length := by
  cases hx : s.expander with
  | false =>
    have hshort : (if shared then [Expander.sharedBusStatement] else []).length ≤ 1 := by
      cases shared <;> decide
    simp only [Bool.false_or, Bool.false_eq_true, if_false, List.append_nil, false_iff]
    omega
  | true =>
    obtain ⟨lines, -, hlines, hlength⟩ := exists_bringUp (ha hx)
    simp only [Bool.true_or, if_true, true_iff, List.length_append, hlines, hlength]
    omega

theorem expander_inj (ha : s.expander = true → ExpanderPin.isAddress s.address = true)
    (ha' : s'.expander = true → ExpanderPin.isAddress s'.address = true)
    (h : ((if s.expander || shared then [Expander.sharedBusStatement] else []) ++
        if s.expander then (expanderStatements s.address).lines else []) =
      (if s'.expander || shared' then [Expander.sharedBusStatement] else []) ++
        if s'.expander then (expanderStatements s'.address).lines else []) :
    s.expander = s'.expander ∧ (s.expander = true → s.address = s'.address) := by
  have hflag : s.expander = s'.expander := by
    rw [Bool.eq_iff_iff, @expander_iff_length s shared ha, @expander_iff_length s' shared' ha', h]
  refine ⟨hflag, fun hx => ?_⟩
  have hx' : s'.expander = true := hflag.symm.trans hx
  obtain ⟨lines, hbringUp, hlines, -⟩ := exists_bringUp (ha hx)
  obtain ⟨lines', hbringUp', hlines', -⟩ := exists_bringUp (ha' hx')
  simp only [hx, hx', Bool.true_or, if_true, List.append_cancel_left_eq, hlines, hlines'] at h
  rw [← h] at hbringUp'
  exact Expander.bringUp_inj hbringUp hbringUp'

/-- The settings of two buses agree in what the lines for them show. -/
structure SameSettings (family : Family) (s s' : BusSettings) : Prop where
  /-- Entries for the data pins. -/
  sda : s.sda = s'.sda
  /-- Entries for the clock pins. -/
  scl : s.scl = s'.scl
  /-- Frequencies that the buses run at, also where none is given. -/
  frequency : ∃ f, Bus.frequency family s.frequency = .ok f ∧
    Bus.frequency family s'.frequency = .ok f
  /-- Expanders on the buses. -/
  expander : s.expander = s'.expander
  /-- Addresses of the expanders. -/
  address : s.expander = true → s.address = s'.address

/-- **The lines for a bus tell its settings.** -/
theorem Built.settings_eq (h : Built family s shared bus) (h' : Built family s' shared' bus')
    (hlines : bus.lines = bus'.lines) :
    s.enabled = s'.enabled ∧
      ((s.enabled && isSupported family) = true → SameSettings family s s') := by
  have henabled : s.enabled = s'.enabled := by
    have hempty := congrArg List.isEmpty hlines
    rwa [h.isEmpty_lines, h'.isEmpty_lines, Bool.not_inj_iff] at hempty
  refine ⟨henabled, fun hworks => ?_⟩
  have hworks' := hworks
  rw [henabled] at hworks'
  cases h with
  | disabled off => simp [off] at hworks
  | unsupported _ hfam => simp [hfam] at hworks
  | @constructed p _ hfam hp _ haddress =>
    cases h' with
    | disabled off => simp [off] at hworks'
    | unsupported _ hfam => simp [hfam] at hworks'
    | @constructed q _ _ hq _ haddress' =>
      -- A bus is constructed in a number of lines that depends on the family only.
      rw [lines_statements, lines_statements] at hlines
      obtain ⟨hconstruct, hrest⟩ := List.append_inj hlines (length_construct family p q)
      obtain ⟨hsda, hscl, hfrequency⟩ := construct_inj hfam hp hq hconstruct
      obtain ⟨hreadSda, hreadScl, hread⟩ := plan_eq_ok_iff.1 hp
      obtain ⟨hreadSda', hreadScl', hread'⟩ := plan_eq_ok_iff.1 hq
      obtain ⟨hexpander, haddresses⟩ := expander_inj haddress haddress' hrest
      exact ⟨eq_of_text hreadSda hreadSda' hsda, eq_of_text hreadScl hreadScl' hscl,
        ⟨_, hread, hfrequency ▸ hread'⟩, hexpander, haddresses⟩

end Bus

/-! ### Boards -/

namespace Board

variable {b b' : Board} {source source' : String} {u u' : GeneratedUnit}

/-- Two boards of one family are wired in the same way. -/
structure SameWiring (b b' : Board) : Prop where
  /-- The keys of both stand in a grid, or in rows and columns. -/
  form : b.keys.layout.isGrid = b'.keys.layout.isGrid
  /-- The entries for the keys are read as the same pins in the same places. -/
  pins : ∃ l, b.readLayout = .ok l ∧ b'.readLayout = .ok l
  /-- The inputs have one level when idle, if one of the pins is one of the chip. -/
  level : (∃ l name number, b.readLayout = .ok l ∧ .mcu name number ∈ l.toList) →
    b.keys.activeLow = b'.keys.activeLow
  /-- Both have a bus, or none. -/
  enabled : b.bus.enabled = b'.bus.enabled
  /-- A bus that works has the same settings. -/
  bus : b.hasBus = true → Bus.SameSettings b.family b.bus b'.bus

/-- **The generated code determines the wiring.**  Boards of one family whose units have the same
lines for the bus and the same lines for the pins are wired in the same way. -/
theorem code_determines_wiring (h : b.generate source = .ok u)
    (h' : b'.generate source' = .ok u') (hfamily : b.family = b'.family)
    (hbus : u.bus.lines = u'.bus.lines) (hpins : u.pins.lines = u'.pins.lines) :
    SameWiring b b' := by
  have hcompiled := generate_eq_ok_iff.1 h
  have hcompiled' := generate_eq_ok_iff.1 h'
  have hlayout := hcompiled.pins_eq_of_lines hcompiled' hfamily hpins
  have hread : b.readLayout = .ok b.pins := readLayout_eq hcompiled.read
  have hread' : b'.readLayout = .ok b'.pins := readLayout_eq hcompiled'.read
  have hbuilt' := hcompiled'.bus
  rw [← hfamily] at hbuilt'
  obtain ⟨henabled, hsettings⟩ := hcompiled.bus.settings_eq hbuilt' hbus
  refine ⟨?_, ⟨b.pins, hread, hlayout ▸ hread'⟩, ?_, henabled, hsettings⟩
  · have hform := congrArg Layout.isGrid hlayout
    rwa [pins, pins, Layout.isGrid_map, Layout.isGrid_map] at hform
  · rintro ⟨l, name, number, hl, hmem⟩
    rw [hread, Except.ok.injEq] at hl
    rw [← hl] at hmem
    exact hcompiled.activeLow_eq_of_lines hcompiled' hfamily hpins hmem

/-- A board with an expander. -/
def desk : Board where
  name := "desk"
  chip := "STM32F411CE"
  family := .stm32
  keys := ⟨.matrix [.text "PA0", .text "MI21_A2"] [.text "PA1"], false, true⟩
  bus := ⟨true, .text "PB7", .text "PB6", .null, true, 0x21⟩

/-- The same wiring in other words: another spelling of a pin, and the frequency given. -/
def deskInOtherWords : Board where
  name := "table"
  chip := "STM32F401CC"
  family := .stm32
  keys := ⟨.matrix [.text "PA0", .text "MI21_A_2"] [.text "PA1"], false, true⟩
  bus := ⟨true, .text "PB7", .text "PB6", .int 100, true, 0x21⟩

/-- Their units have the same lines, and so they are wired in the same way. -/
theorem code_determines_wiring_desk :
    ∃ u u', desk.generate "" = .ok u ∧ deskInOtherWords.generate "" = .ok u' ∧
      u.bus.lines = u'.bus.lines ∧ u.pins.lines = u'.pins.lines ∧
      SameWiring desk deskInOtherWords := by
  obtain ⟨u, hu⟩ := exists_unit (b := desk) (by decide) rfl ""
  obtain ⟨u', hu'⟩ := exists_unit (b := deskInOtherWords) (by decide) rfl ""
  have hcompiled := generate_eq_ok_iff.1 hu
  have hcompiled' := generate_eq_ok_iff.1 hu'
  have hlayout : desk.pins = deskInOtherWords.pins := rfl
  have hbus : u.bus.lines = u'.bus.lines := by
    have hbuilt := Bus.build_eq_ok_iff.2 hcompiled.bus
    have hbuilt' := Bus.build_eq_ok_iff.2 hcompiled'.bus
    rw [← hlayout] at hbuilt'
    exact congrArg Fragment.lines (Except.ok.inj (hbuilt.symm.trans hbuilt'))
  have hpins : u.pins.lines = u'.pins.lines := by
    rw [hcompiled.pins_eq, hcompiled'.pins_eq, hlayout]
    rfl
  exact ⟨u, u', hu, hu', hbus, hpins, code_determines_wiring hu hu' rfl hbus hpins⟩

end Board

end BoardWiring
