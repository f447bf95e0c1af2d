import BoardWiring.Proofs.StatementReading
import BoardWiring.Proofs.Verdict

/-!
# What fragments say about their lines

A fragment carries the names that its lines introduce and the errors for which some of them fail
the build.  Both are kept beside the lines, and both can be read off them.

* `Fragment.IsTruthful` says that a fragment carries exactly what is read off its lines, and
  `Fragment.IsTruthful.append` that a sum of such fragments does so;
* `Fragment.Produced` are the fragments that the builders give, and their sums;
* `Emit.isTruthful_part`, `Emit.isTruthful_statements` and `Bus.Built.isTruthful` treat the
  statements for a pin, for a layout and for a bus, and `Board.fragments_truthful` all of them.
-/

namespace BoardWiring

open Code Name Outcome

/-- A line that introduces nothing and does not fail the build. -/
def Code.IsSilent (line : String) : Prop := declared? line = none ∧ failing? line = none

theorem Code.isSilent_append {s : String} (h : isInert s = true) (rest : String) :
    IsSilent (s ++ rest) :=
  ⟨declared?_of_isInert h rest, failing?_of_isInert h rest⟩

theorem Code.isSilent_of_isInert {s : String} (h : isInert s = true) : IsSilent s := by
  have hempty := isSilent_append h ""
  rwa [String.append_empty] at hempty

namespace Fragment

/-- A fragment carries the names that its lines introduce, in order, and the errors for which
lines of it fail the build, in order. -/
structure IsTruthful (f : Fragment) : Prop where
  bindings : f.lines.filterMap declared? = f.bindings
  diagnostics : f.lines.filterMap failing? =
    f.diagnostics.map fun e => Diagnostic.expression e.message

/-- The fragments that are given for buses, for pins under their own names, for layouts and for
errors without a name, and the sums of such fragments. -/
inductive Produced : Fragment → Prop where
  | bus {family : Family} {settings : BusSettings} {shared : Bool} {f : Fragment}
      (built : Bus.build family settings shared = .ok f) : Produced f
  | output {family : Family} {pin : Pin} {activeLow : Bool} {f : Fragment}
      (emitted : Emit.outputPin family pin activeLow none = .ok f) : Produced f
  | input {family : Family} {pin : Pin} {role : Role} {activeLow : Bool} {f : Fragment}
      (emitted : Emit.inputPin family pin role activeLow none = .ok f) : Produced f
  | matrix {family : Family} {rows cols : List Pin} {interrupt activeLow : Bool} {f : Fragment}
      (emitted : Emit.matrix family rows cols interrupt activeLow = .ok f) : Produced f
  | grid {family : Family} {rows : List (List Pin)} {interrupt activeLow : Bool} {f : Fragment}
      (emitted : Emit.grid family rows interrupt activeLow = .ok f) : Produced f
  | diagnostic (e : ConfigError) : Produced (Diagnostic.fragment e "")
  | sum {f g : Fragment} (left : Produced f) (right : Produced g) : Produced (f ++ g)

variable {f g : Fragment} {name s line : String}

/-- A failing line is one of those that the errors of its fragment account for. -/
theorem IsTruthful.failing?_eq_none (h : IsTruthful f) (hnone : f.diagnostics = [])
    (hline : line ∈ f.lines) : failing? line = none := by
  have herrors := h.diagnostics
  rw [hnone, List.map_nil, List.filterMap_eq_nil_iff] at herrors
  exact herrors line hline

/-! ### Sums -/

theorem isTruthful_empty : IsTruthful empty := ⟨rfl, rfl⟩

/-- **A sum of truthful fragments is truthful.** -/
theorem IsTruthful.append (hf : IsTruthful f) (hg : IsTruthful g) : IsTruthful (f ++ g) := by
  constructor
  · rw [lines_append, List.filterMap_append, hf.bindings, hg.bindings]
    rfl
  · rw [lines_append, List.filterMap_append, hf.diagnostics, hg.diagnostics, diagnostics_append,
      List.map_append]

/-! ### Statements -/

/-- A statement is truthful if its value begins like no failing expression. -/
theorem isTruthful_statement (hname : IsWord name) (hs : isApart s = true) (rest : String) :
    IsTruthful (Emit.statement name (s ++ rest)) := by
  constructor
  · exact List.filterMap_cons_some (declared?_statement hname _)
  · exact List.filterMap_cons_none (failing?_statement hname hs rest)

theorem isTruthful_array (hname : IsWord name) (items : List String) :
    IsTruthful (array name items) := by
  rw [array_eq_statement, String.append_assoc]
  exact isTruthful_statement hname (by decide) _

theorem isTruthful_fragment (hname : IsWord name) (e : ConfigError) :
    IsTruthful (Diagnostic.fragment e name) := by
  have hne : name ≠ "" := by
    rintro rfl
    exact hname.ne_nil rfl
  rw [Diagnostic.fragment, if_neg hne]
  constructor
  · exact List.filterMap_cons_some (declared?_statement hname _)
  · exact List.filterMap_cons_some (failing?_binding hname e.message)

theorem isTruthful_unnamed (e : ConfigError) : IsTruthful (Diagnostic.fragment e "") := by
  rw [Diagnostic.fragment, if_pos rfl]
  constructor
  · exact List.filterMap_cons_none (declared?_failing e.message)
  · exact List.filterMap_cons_some (failing?_failing e.message)

theorem isTruthful_ofLines {lines : List String} (hdeclared : declared? line = some name)
    (hbuilds : failing? line = none) (hsilent : ∀ l ∈ lines, IsSilent l) :
    IsTruthful (ofLines (line :: lines) [name]) := by
  have hnames : lines.filterMap declared? = [] :=
    List.filterMap_eq_nil_iff.2 fun l hl => (hsilent l hl).1
  have herrors : lines.filterMap failing? = [] :=
    List.filterMap_eq_nil_iff.2 fun l hl => (hsilent l hl).2
  constructor
  · exact (List.filterMap_cons_some hdeclared).trans (congrArg _ hnames)
  · exact (List.filterMap_cons_none hbuilds).trans herrors

end Fragment

open Fragment

/-! ### Pins and layouts -/

namespace Emit

variable {family : Family} {pin : Pin} {role : Role} {activeLow interrupt : Bool} {name : String}

/-- **The statement for a pin that does not stop the emitters is truthful.** -/
theorem isTruthful_part (hname : IsWord name) (hstop : stopFault? family pin role = none)
    (wrap : Wrap) :
    IsTruthful (part family name pin role activeLow wrap) := by
  unfold part
  cases hrole : roleFault? family pin role with
  | some e => exact isTruthful_fragment hname e
  | none =>
    obtain ⟨rest, hexpression⟩ := @exists_opening family pin role activeLow hstop hrole
    cases wrap with
    | plain =>
      dsimp only [Wrap.apply]
      rw [hexpression]
      exact isTruthful_statement hname (isApart_opening _) rest
    | some =>
      dsimp only [Wrap.apply]
      rw [String.append_assoc]
      exact isTruthful_statement hname (by decide) _

theorem isTruthful_bind (hname : IsWord name) {wrap : Wrap} {f : Fragment}
    (h : bind family name pin role activeLow wrap = .ok f) : IsTruthful f := by
  rw [bind_eq] at h
  cases hstop : stopFault? family pin role with
  | some e => simp [hstop] at h
  | none =>
    rw [hstop, ofFault?_none, Except.ok.injEq] at h
    exact h ▸ isTruthful_part hname hstop wrap

theorem isTruthful_ownBind {f : Fragment}
    (h : (ownName pin >>= fun name => bind family name pin role activeLow .plain) = .ok f) :
    IsTruthful f := by
  rw [ownName_bind] at h
  exact isTruthful_bind (isWord_name pin) h

/-- What holds of the statements for pins and for places without one and of arrays, and of the sums
of what it holds of, holds of the statements for a layout that does not stop the emitters. -/
theorem statements_induction {P : Fragment → Prop} (hempty : P empty)
    (happend : ∀ f g, P f → P g → P (f ++ g))
    (harray : ∀ name items, IsWord name → P (array name items))
    (hplace : ∀ name, IsWord name → P (statement name "None"))
    (hpart : ∀ name pin role wrap, IsWord name → stopFault? family pin role = none →
      P (part family name pin role activeLow wrap))
    {l : Layout Pin} (hstop : layoutFault? family interrupt l = none) :
    P (statements family interrupt activeLow l) := by
  have hconcat : ∀ fs : List Fragment, (∀ f ∈ fs, P f) → P (concat fs) := by
    intro fs hfs
    induction fs with
    | nil => exact hempty
    | cons f fs ih =>
      rw [List.forall_mem_cons] at hfs
      exact happend f (concat fs) hfs.1 (ih hfs.2)
  cases l with
  | matrix rows cols =>
    rw [layoutFault?, Option.or_eq_none_iff, Option.or_eq_none_iff, Option.or_eq_none_iff,
      List.findSome?_eq_none_iff, List.findSome?_eq_none_iff] at hstop
    obtain ⟨-, -, hrows, hcols⟩ := hstop
    have hparts : ∀ name ps role, IsWord name → (∀ p ∈ ps, stopFault? family p role = none) →
        P (withArray name (parts family ps role activeLow)) := by
      intro name ps role hname hps
      refine happend _ _ (hconcat _ fun f hf => ?_) (harray name _ hname)
      obtain ⟨p, hp, rfl⟩ := List.mem_map.1 hf
      exact hpart _ p role .plain (isWord_name p) (hps p hp)
    exact happend _ _ (hparts _ rows _ (isWord_array _ (by decide)) hrows)
      (hparts _ cols _ (isWord_array _ (by decide)) hcols)
  | grid rows =>
    rw [layoutFault?, Option.or_eq_none_iff, Option.or_eq_none_iff,
      List.findSome?_eq_none_iff] at hstop
    obtain ⟨-, -, hplaces⟩ := hstop
    have hcell : ∀ p row col, placeFault? family interrupt p = none →
        P (cellPart family p row col interrupt activeLow) := by
      intro p row col hp
      unfold cellPart
      split_ifs with habsent
      · exact hplace _ (isWord_cellName p row col)
      · rw [placeFault?, if_neg habsent] at hp
        exact hpart _ p _ .some (isWord_cellName p row col) hp
    refine happend _ _ (hconcat _ fun f hf => ?_) (harray _ _ (isWord_array _ (by decide)))
    obtain ⟨r, hr, rfl⟩ := List.mem_map.1 hf
    refine happend _ _ (hconcat _ fun f hf => ?_) (harray _ _ (isWord_rowName r.2))
    obtain ⟨p, hp, rfl⟩ := List.mem_map.1 hf
    refine hcell p.1 r.2 p.2 (hplaces p.1 ?_)
    exact List.mem_flatten_of_mem (List.fst_mem_of_mem_zipIdx hr) (List.fst_mem_of_mem_zipIdx hp)

/-- **The statements for a layout that does not stop the emitters are truthful.** -/
theorem isTruthful_statements {l : Layout Pin} (hstop : layoutFault? family interrupt l = none) :
    IsTruthful (statements family interrupt activeLow l) := by
  refine statements_induction isTruthful_empty (fun _ _ => IsTruthful.append)
    (fun _ items hname => isTruthful_array hname items) (fun name hname => ?_)
    (fun _ _ _ wrap hname hpin => isTruthful_part hname hpin wrap) hstop
  exact isTruthful_statement (s := "None") hname (by decide) ""

theorem isTruthful_layout {l : Layout Pin} {f : Fragment}
    (h : layout family l interrupt activeLow = .ok f) : IsTruthful f := by
  rw [layout_eq_ofFault?] at h
  cases hstop : layoutFault? family interrupt l with
  | some e => simp [hstop] at h
  | none =>
    rw [hstop, ofFault?_none, Except.ok.injEq] at h
    exact h ▸ isTruthful_statements hstop

end Emit

/-! ### Buses -/

namespace Bus

variable {family : Family} {s : BusSettings} {shared : Bool} {bus : Fragment}

theorem isTruthful_construct (h : isSupported family = true) (p : Plan) :
    IsTruthful (ofLines (construct family p) ["i2c"]) := by
  -- The first line introduces the bus; no other line begins like a statement that is read.
  cases family with
  | esp32 => cases h
  | stm32 =>
    have hpin : ∀ t : String, IsSilent ("    p." ++ t ++ ",") := fun t => by
      rw [String.append_assoc]
      exact isSilent_append (by decide) _
    have hclock : IsSilent ("    ::embassy_stm32::time::Hertz(" ++ Digits.signed p.frequency ++
        " * 1000),") := by
      rw [String.append_assoc]
      exact isSilent_append (by decide) _
    refine isTruthful_ofLines (by decide) (by decide) ?_
    simp only [List.forall_mem_cons]
    exact ⟨isSilent_of_isInert (by decide), hpin _, hpin _, hclock, isSilent_of_isInert (by decide),
      isSilent_of_isInert (by decide), fun _ hl => by cases hl⟩
  | nrf52 =>
    have hclock : IsSilent ("    config.frequency = ::embassy_nrf::twim::Frequency::K" ++
        Digits.signed p.frequency ++ ";") := by
      rw [String.append_assoc]
      exact isSilent_append (by decide) _
    have hpins : IsSilent ("    ::embassy_nrf::twim::Twim::new(p.TWISPI0, Irqs, p." ++ p.sda.text ++
        ", p." ++ p.scl.text ++ ", config)") := by
      simp only [String.append_assoc]
      exact isSilent_append (by decide) _
    refine isTruthful_ofLines (by decide) (by decide) ?_
    simp only [List.forall_mem_cons]
    exact ⟨isSilent_of_isInert (by decide), hclock, isSilent_of_isInert (by decide), hpins,
      isSilent_of_isInert (by decide), isSilent_append (by decide) _, fun _ hl => by cases hl⟩
  | rp2040 =>
    have hclock : IsSilent ("    config.frequency = " ++ Digits.signed p.frequency ++
        " * 1000;") := by
      rw [String.append_assoc]
      exact isSilent_append (by decide) _
    have hpins : IsSilent ("    ::embassy_rp::i2c::I2c::new_blocking(p.I2C0, p." ++ p.scl.text ++
        ", p." ++ p.sda.text ++ ", config)") := by
      simp only [String.append_assoc]
      exact isSilent_append (by decide) _
    refine isTruthful_ofLines (by decide) (by decide) ?_
    simp only [List.forall_mem_cons]
    exact ⟨isSilent_of_isInert (by decide), hclock, hpins, isSilent_of_isInert (by decide),
      fun _ hl => by cases hl⟩

theorem isTruthful_sharing : IsTruthful sharing := ⟨by decide, by decide⟩

theorem isTruthful_expanderStatements (address : Int) :
    IsTruthful (expanderStatements address) := by
  have hname : IsWord "mcp23x17" := ⟨by decide, List.all_eq_true.1 (by decide)⟩
  -- What stands behind the opening of the first line differs from one address to another.
  have hbringUp : ∀ rest : String, IsTruthful (ofLines
      ["let mut " ++ "mcp23x17" ++ " = " ++ ("::port_expander::" ++ rest),
        "let ge = mcp23x17.split();",
        "::defmt::info!(\"MCP23017 initialized\");"] ["mcp23x17", "ge"]) := by
    intro rest
    constructor
    · exact List.filterMap_cons_some (declared?_declaration (by decide) hname _)
    · exact List.filterMap_cons_none (failing?_declaration (by decide) hname (by decide) rest)
  have hopen : "let mut mcp23x17 = ::port_expander::Mcp23x17::new_mcp23017(" =
      "let mut " ++ "mcp23x17" ++ " = " ++ ("::port_expander::" ++ "Mcp23x17::new_mcp23017(") := rfl
  unfold expanderStatements Expander.bringUp
  by_cases haddress : ExpanderPin.isAddress address = true
  · rw [if_pos haddress, hopen]
    simp only [String.append_assoc] at hbringUp ⊢
    exact hbringUp _
  · rw [if_neg haddress]
    exact isTruthful_empty

theorem isTruthful_standIn (family : Family) : IsTruthful (standIn family) := by
  cases family with
  | stm32 => exact ⟨by decide, by decide⟩
  | nrf52 => exact ⟨by decide, by decide⟩
  | rp2040 => exact ⟨by decide, by decide⟩
  | esp32 => exact ⟨by decide, by decide⟩

/-- **The statements for a bus are truthful.** -/
theorem Built.isTruthful (h : Built family s shared bus) : IsTruthful bus := by
  cases h with
  | disabled => exact isTruthful_empty
  | unsupported => exact isTruthful_standIn family
  | @constructed p _ hfam =>
    refine ((isTruthful_construct hfam p).append ?_).append ?_
    · split_ifs
      · exact isTruthful_sharing
      · exact isTruthful_empty
    · split_ifs
      · exact isTruthful_expanderStatements s.address
      · exact isTruthful_empty

end Bus

/-! ### All fragments -/

theorem Fragment.Produced.isTruthful {f : Fragment} (h : Produced f) : IsTruthful f := by
  induction h with
  | bus built => exact (Bus.build_eq_ok_iff.1 built).isTruthful
  | output emitted => exact Emit.isTruthful_ownBind emitted
  | input emitted =>
    unfold Emit.inputPin at emitted
    split_ifs at emitted
    exact Emit.isTruthful_ownBind emitted
  | @matrix _ rows cols _ _ _ emitted =>
    exact @Emit.isTruthful_layout _ _ _ (.matrix rows cols) _ emitted
  | @grid _ rows _ _ _ emitted => exact @Emit.isTruthful_layout _ _ _ (.grid rows) _ emitted
  | diagnostic e => exact isTruthful_unnamed e
  | sum _ _ hf hg => exact hf.append hg

/-- The fragments of a compiled unit are among those that are given. -/
theorem Board.Compiled.produced {b : Board} {source : String} {u : GeneratedUnit}
    (h : Board.Compiled b source u) : Produced u.bus ∧ Produced u.pins := by
  have hlayout : Emit.layout b.family b.pins b.keys.interrupt b.keys.activeLow = .ok u.pins := by
    rw [Emit.layout_eq h.isSound (Board.sublist_unique h.unique), h.rectangular, h.pins_eq,
      Emit.statements_eq_ofLines h.capable]
  refine ⟨.bus (Bus.build_eq_ok_iff.2 h.bus), ?_⟩
  generalize b.pins = l at hlayout
  cases l with
  | matrix rows cols => exact .matrix hlayout
  | grid rows => exact .grid hlayout

/-- **Fragments tell the truth about their lines.**  Whatever the tokens, roles and flags, a
fragment that is given for a bus, for a pin under its own name, for a layout or for an error without
a name, and any sum of such fragments, carries exactly the names that its lines introduce and the
errors for which lines of it fail the build, both in order.  A unit carries no errors, and none of
its lines fails the build. -/
theorem Board.fragments_truthful :
    (∀ f, Produced f → f.IsTruthful) ∧
      ∀ (b : Board) (source : String) (u : GeneratedUnit), b.generate source = .ok u →
        u.bus.diagnostics = [] ∧ u.pins.diagnostics = [] ∧
          ∀ line ∈ u.lines, failing? line = none := by
  refine ⟨fun f hf => hf.isTruthful, fun b source u hu => ?_⟩
  have hcompiled := Board.generate_eq_ok_iff.1 hu
  obtain ⟨hbus, hpins⟩ := hcompiled.produced
  have hclean : u.bus.diagnostics = [] := hcompiled.bus.diagnostics_eq
  have hclean' : u.pins.diagnostics = [] := by
    rw [hcompiled.pins_eq]
    rfl
  refine ⟨hclean, hclean', fun line hline => ?_⟩
  rcases List.mem_append.1 hline with hline | hline
  · exact hbus.isTruthful.failing?_eq_none hclean hline
  · exact hpins.isTruthful.failing?_eq_none hclean' hline

/-- A board with one row and one column, and no bus. -/
def Board.buzzer : Board where
  name := "buzzer"
  chip := "RP2040"
  family := .rp2040
  keys := ⟨.matrix [.text "PIN_1"] [.text "PIN_2"], true, true⟩
  bus := .none

/-- A sum of three fragments, with a pin that is spelt like a keyword and two errors, and the unit
of a board. -/
theorem Board.fragments_truthful_buzzer :
    (∃ f, Produced f ∧ f.bindings = ["i2c", "mut"] ∧ f.diagnostics.length = 2 ∧ f.IsTruthful) ∧
      ∃ u, Board.buzzer.generate "" = .ok u ∧ ∀ line ∈ u.lines, failing? line = none := by
  have hbus : Bus.build .esp32 ⟨true, .null, .null, .null, false, 0x20⟩ false =
      .ok (Bus.standIn .esp32) := rfl
  have hinput : Emit.inputPin .stm32 (.mcu "MUT" 16) .interruptInput true none =
      .ok (Diagnostic.fragment (.noInterruptLine "MUT" 16) "mut") := by
    have hname : Emit.nameOr (.mcu "MUT" 16) none = .ok "mut" := rfl
    have hsound : (Pin.mcu "MUT" 16).isSound = true := Digits.isWritable_of_lt (by decide)
    rw [Emit.inputPin, if_neg (by decide), hname, Outcome.ok_bind, Emit.bind_eq,
      Emit.stopFault?_of_sound hsound]
    rfl
  have hsum : Produced (Bus.standIn .esp32 ++
      Diagnostic.fragment (.noInterruptLine "MUT" 16) "mut" ++
        Diagnostic.fragment .absentOutsideGrid "") :=
    ((Produced.bus hbus).sum (.input hinput)).sum (.diagnostic _)
  obtain ⟨u, hu⟩ := Board.exists_unit (b := Board.buzzer) (by decide) rfl ""
  refine ⟨⟨_, hsum, rfl, rfl, Board.fragments_truthful.1 _ hsum⟩, u, hu, ?_⟩
  exact (Board.fragments_truthful.2 _ _ _ hu).2.2

end BoardWiring
