import BoardWiring.Proofs.DistinctNames
import BoardWiring.Proofs.ExpressionForms
import BoardWiring.Proofs.Scope

/-!
# The bindings of a unit are distinct

The names that a unit introduces differ, unless two spellings clash.

* `Emit.cellName_inj` says that a name for a place of a grid tells the place;
* `Board.binders` are the names that a unit introduces, with the pins that they are bound to;
* `Board.bindings_distinct` says that two of them are equal only if they are bound to pins of the
  chip in rows and columns whose spellings clash, and that no name for a pin is one of the others.
-/

namespace BoardWiring

namespace Emit

variable {interrupt : Bool}

/-! ### Places of a grid -/

theorem line_not_mem_decimal (n : Nat) : '_' ∉ (Digits.decimal n).toList := by
  intro hline
  rw [Digits.decimal, String.toList_ofList] at hline
  exact Digits.forall_mem_write (P := (· ≠ '_')) (by decide) (by decide) n _ hline rfl

/-- What stands behind the last low line of a text is read back. -/
theorem line_inj {s t d e : String} (hd : '_' ∉ d.toList) (he : '_' ∉ e.toList)
    (h : s ++ "_" ++ d = t ++ "_" ++ e) : s = t ∧ d = e := by
  have hlist := congrArg (fun s => s.toList.reverse) h
  simp only [String.toList_append, List.reverse_append, List.append_assoc] at hlist
  -- Read backwards, it stands in front, and the low line ends it.
  have hd' : '_' ∉ d.toList.reverse := by rwa [List.mem_reverse]
  have he' : '_' ∉ e.toList.reverse := by rwa [List.mem_reverse]
  obtain ⟨hbehind, htext⟩ := Text.cut_inj hd' he' hlist
  exact ⟨String.toList_inj.1 (List.reverse_injective htext),
    String.toList_inj.1 (List.reverse_injective hbehind)⟩

theorem behind_line_inj {s t : String} {m n : Nat}
    (h : s ++ "_" ++ Digits.decimal m = t ++ "_" ++ Digits.decimal n) : s = t ∧ m = n := by
  obtain ⟨htext, hnumber⟩ := line_inj (line_not_mem_decimal m) (line_not_mem_decimal n) h
  exact ⟨htext, Digits.decimal_injective hnumber⟩

/-- **The name for a place of a grid tells the place.** -/
theorem cellName_inj {p q : Pin} {row row' col col' : Nat}
    (h : cellName p row col = cellName q row' col') : row = row' ∧ col = col' := by
  obtain ⟨hrest, hcol⟩ := behind_line_inj h
  exact ⟨(behind_line_inj hrest).2, hcol⟩

theorem rowName_injective : Function.Injective rowName := by
  intro row row' h
  change "direct_pins_row_" ++ Digits.decimal row = "direct_pins_row_" ++ Digits.decimal row' at h
  exact Digits.decimal_injective ((String.append_right_inj _).1 h)

/-! ### Names and pins -/

/-- The name that a line introduces, and the pin that it is bound to. -/
def binder (x : PinLine) : String × Option Pin := (x.name, x.pin?)

/-- Two names that are bound to pins of the chip whose spellings clash. -/
def Doubled (x y : String × Option Pin) : Prop :=
  ∃ m i n j, x.2 = some (.mcu m i) ∧ y.2 = some (.mcu n j) ∧ Pin.Clash m n

/-- If the names for pins begin in their own ways, those for pins and the others can be compared
on their own. -/
theorem pairwise_of_heads {xs : List (String × Option Pin)}
    {R : String × Option Pin → String × Option Pin → Prop}
    (hhead : ∀ x ∈ xs, Pin.isHead x.1.toList = x.2.isSome)
    (hpins : (xs.filter fun x => x.2.isSome).Pairwise fun x y => x.1 = y.1 → R x y)
    (hothers : (xs.filter fun x => !x.2.isSome).Pairwise fun x y => x.1 ≠ y.1) :
    xs.Pairwise fun x y => x.1 = y.1 → R x y := by
  rw [List.pairwise_filter] at hpins hothers
  refine (hpins.and hothers).imp_of_mem fun {x y} hx hy hxy heq => ?_
  -- Equal names begin alike, so both are bound to pins or neither is.
  have hsame : x.2.isSome = y.2.isSome := by
    rw [← hhead x hx, ← hhead y hy, heq]
  cases hkind : x.2.isSome with
  | true => exact hxy.1 hkind (hsame ▸ hkind) heq
  | false =>
    refine absurd heq (hxy.2 ?_ ?_)
    · rw [hkind]
      rfl
    · rw [← hsame, hkind]
      rfl

theorem map_binder_matrix (rows cols : List Pin) :
    (lines interrupt (.matrix rows cols)).map binder =
      (rows.map fun p => (p.name, some p)) ++ [("input_pins", none)] ++
        ((cols.map fun p => (p.name, some p)) ++ [("output_pins", none)]) := by
  simp only [lines, matrixLines, List.map_append, List.map_map]
  rfl

theorem binder_cellLine (p : Pin) (row col : Nat) :
    binder (cellLine interrupt p row col) = (cellName p row col, some p) := by
  unfold cellLine
  split_ifs with hp
  · rw [hp]
    rfl
  · rfl

theorem map_binder_grid (rows : List (List Pin)) :
    (lines interrupt (.grid rows)).map binder =
      (rows.zipIdx.flatMap fun r => (r.1.zipIdx.map fun q => (cellName q.1 r.2 q.2, some q.1)) ++
        [(rowName r.2, none)]) ++ [("direct_pins", none)] := by
  simp only [lines, rowLines, List.map_append, List.map_flatMap, List.map_map, Function.comp_def,
    binder_cellLine]
  rfl

theorem zipIdx_pairwise {α : Type} (xs : List α) : xs.zipIdx.Pairwise fun x y => x.2 ≠ y.2 := by
  have hnodup : (xs.zipIdx.map Prod.snd).Nodup := by
    rw [List.zipIdx_map_snd]
    exact List.nodup_range'
  exact List.pairwise_map.1 hnodup

/-- The names of the arrays of a layout. -/
def arrayNames : Layout Pin → List String
  | .matrix _ _ => ["input_pins", "output_pins"]
  | .grid rows => (rows.zipIdx.map fun r => rowName r.2) ++ ["direct_pins"]

/-- The names for the pins of a layout, with the pins. -/
def pinBinders : Layout Pin → List (String × Option Pin)
  | .matrix rows cols => (rows ++ cols).map fun p => (p.name, some p)
  | .grid rows =>
    rows.zipIdx.flatMap fun r => r.1.zipIdx.map fun q => (cellName q.1 r.2 q.2, some q.1)

theorem filter_isSome_binders (l : Layout Pin) :
    (((lines interrupt l).map binder).filter fun x => x.2.isSome) = pinBinders l := by
  have hall : ∀ {α : Type} (f : α → String) (g : α → Pin) (xs : List α),
      ((xs.map fun x => (f x, some (g x))).filter fun x => x.2.isSome) =
        xs.map fun x => (f x, some (g x)) := by
    intro α f g xs
    rw [List.filter_eq_self]
    intro x hx
    obtain ⟨y, -, rfl⟩ := List.mem_map.1 hx
    rfl
  cases l with
  | matrix rows cols =>
    rw [map_binder_matrix, pinBinders, List.filter_append, List.filter_append, List.filter_append,
      hall, hall, List.map_append]
    simp
  | grid rows =>
    rw [map_binder_grid, pinBinders, List.filter_append, List.filter_flatMap]
    simp only [List.filter_append, hall]
    simp

theorem filter_not_isSome_binders (l : Layout Pin) :
    (((lines interrupt l).map binder).filter fun x => !x.2.isSome) =
      (arrayNames l).map fun name => (name, none) := by
  have hnone : ∀ {α : Type} (f : α → String) (g : α → Pin) (xs : List α),
      ((xs.map fun x => (f x, some (g x))).filter fun x => !x.2.isSome) = [] := by
    intro α f g xs
    rw [List.filter_eq_nil_iff]
    intro x hx
    obtain ⟨y, -, rfl⟩ := List.mem_map.1 hx
    simp
  cases l with
  | matrix rows cols =>
    rw [map_binder_matrix, arrayNames, List.filter_append, List.filter_append, List.filter_append,
      hnone, hnone]
    rfl
  | grid rows =>
    rw [map_binder_grid, arrayNames, List.filter_append, List.filter_flatMap]
    simp only [List.filter_append, hnone, List.nil_append, List.map_append, List.map_map]
    rw [List.map_eq_flatMap]
    rfl

theorem pairwise_grid (rows : List (List Pin)) :
    (pinBinders (.grid rows)).Pairwise fun x y => x.1 ≠ y.1 := by
  rw [pinBinders, List.pairwise_flatMap]
  constructor
  · intro r _
    rw [List.pairwise_map]
    exact (zipIdx_pairwise r.1).imp fun hne heq => hne (cellName_inj heq).2
  · refine (zipIdx_pairwise rows).imp fun hne x hx y hy heq => ?_
    obtain ⟨p, -, rfl⟩ := List.mem_map.1 hx
    obtain ⟨q, -, rfl⟩ := List.mem_map.1 hy
    exact hne (cellName_inj heq).1

theorem prefix_rowName (n : Nat) : "direct_pins_row_".toList <+: (rowName n).toList := by
  change _ <+: ("direct_pins_row_" ++ Digits.decimal n).toList
  rw [String.toList_append]
  exact List.prefix_append _ _

theorem ne_rowName {s : String} (h : ¬"direct_pins_row_".toList <+: s.toList) (n : Nat) :
    s ≠ rowName n := by
  rintro rfl
  exact h (prefix_rowName n)

theorem not_isHead_rowName (n : Nat) : Pin.isHead (rowName n).toList = false := by
  obtain ⟨rest, hrest⟩ := prefix_rowName n
  rw [← hrest]
  rfl

theorem nodup_arrayNames (l : Layout Pin) :
    (["i2c", "i2c_bus", "mcp23x17", "ge"] ++ arrayNames l).Nodup := by
  cases l with
  | matrix rows cols =>
    change ["i2c", "i2c_bus", "mcp23x17", "ge", "input_pins", "output_pins"].Nodup
    decide
  | grid rows =>
    have hrows : (rows.zipIdx.map fun r => rowName r.2).Nodup := by
      rw [List.Nodup, List.pairwise_map]
      exact (zipIdx_pairwise rows).imp fun hne heq => hne (rowName_injective heq)
    rw [arrayNames, List.nodup_append, List.nodup_append]
    refine ⟨by decide, ⟨hrows, by decide, ?_⟩, ?_⟩
    · intro s hs t ht
      obtain ⟨r, -, rfl⟩ := List.mem_map.1 hs
      rw [List.mem_singleton.1 ht]
      exact (ne_rowName (by decide) r.2).symm
    · intro s hs t ht
      rcases List.mem_append.1 ht with ht | ht
      · obtain ⟨r, -, rfl⟩ := List.mem_map.1 ht
        refine ne_rowName ?_ r.2
        revert s
        decide
      · rw [List.mem_singleton.1 ht]
        revert s
        decide

/-- The names of arrays and of the bus do not begin like those of pins. -/
theorem not_isHead_arrayNames {l : Layout Pin} {s : String} (h : s ∈ arrayNames l) :
    Pin.isHead s.toList = false := by
  cases l with
  | matrix rows cols =>
    have hfixed : ∀ s ∈ ["input_pins", "output_pins"], Pin.isHead s.toList = false := by decide
    exact hfixed s h
  | grid rows =>
    rcases List.mem_append.1 h with h | h
    · obtain ⟨r, -, rfl⟩ := List.mem_map.1 h
      exact not_isHead_rowName r.2
    · rw [List.mem_singleton.1 h]
      decide

theorem isHead_pinBinders {l : Layout Pin} (hl : ∀ p ∈ l.toList, Pin.isHead p.name.toList = true)
    {x : String × Option Pin} (h : x ∈ pinBinders l) : Pin.isHead x.1.toList = true := by
  cases l with
  | matrix rows cols =>
    obtain ⟨p, hp, rfl⟩ := List.mem_map.1 h
    dsimp only
    exact hl p hp
  | grid rows =>
    obtain ⟨r, hr, h⟩ := List.mem_flatMap.1 h
    obtain ⟨q, hq, rfl⟩ := List.mem_map.1 h
    have hmem : q.1 ∈ rows.flatten :=
      List.mem_flatten_of_mem (List.fst_mem_of_mem_zipIdx hr) (List.fst_mem_of_mem_zipIdx hq)
    rw [cellName]
    simp only [String.append_assoc, String.toList_append]
    exact Pin.isHead_append (hl q.1 hmem) _

end Emit

/-! ### Units -/

/-- The names that a bus introduces are some of four, in order. -/
theorem Bus.Built.bindings_sublist {family : Family} {s : BusSettings} {shared : Bool}
    {bus : Fragment} (h : Bus.Built family s shared bus) :
    bus.bindings.Sublist ["i2c", "i2c_bus", "mcp23x17", "ge"] := by
  cases h with
  | disabled => exact List.nil_sublist _
  | unsupported => exact List.singleton_sublist.2 (by simp)
  | @constructed p _ _ _ _ address =>
    have hexpander : ∀ a, (Bus.expanderStatements a).bindings = [] ∨
        (Bus.expanderStatements a).bindings = ["mcp23x17", "ge"] := by
      intro a
      unfold Bus.expanderStatements
      split
      · exact Or.inr rfl
      · exact Or.inl rfl
    -- Each part is there or not, and the parts stand in the order of the four names.
    have hparts : ∀ c d : Bool, ∀ es, es = [] ∨ es = ["mcp23x17", "ge"] →
        (["i2c"] ++ (if c then ["i2c_bus"] else []) ++ (if d then es else [])).Sublist
          ["i2c", "i2c_bus", "mcp23x17", "ge"] := by
      rintro c d es (rfl | rfl)
      · revert c d
        decide
      · revert c d
        decide
    have hbindings : (Bus.statements family p s shared).bindings =
        ["i2c"] ++ (if s.expander || shared then ["i2c_bus"] else []) ++
          (if s.expander then (Bus.expanderStatements s.address).bindings else []) := by
      unfold Bus.statements
      cases s.expander <;> cases shared <;>
        simp [Fragment.ofLines, Bus.sharing, Fragment.empty, Expander.sharedBus]
    rw [hbindings]
    exact hparts _ _ _ (hexpander _)

namespace Board

variable {b : Board} {source : String} {u : GeneratedUnit}

/-- The names that a unit introduces in order, with the pins that they are bound to. -/
def binders (b : Board) (u : GeneratedUnit) : List (String × Option Pin) :=
  (u.bus.bindings.map fun name => (name, none)) ++
    (Emit.lines b.keys.interrupt b.pins).map Emit.binder

theorem Compiled.exists_spelt (h : Compiled b source u) {p : Pin} (hp : p ∈ b.pins.toList) :
    ∃ raw, Pin.Spelt b.family b.keys.layout.isGrid raw p := by
  rw [pins, Layout.toList_map] at hp
  obtain ⟨v, hv, rfl⟩ := List.mem_map.1 hp
  obtain ⟨raw, -, hs⟩ := Pin.read_eq_ok_iff.1 (read_ofEntry (h.read v hv))
  exact ⟨raw, hs⟩

theorem map_fst_binders (h : Compiled b source u) : (b.binders u).map Prod.fst = u.bindings := by
  rw [binders, List.map_append, List.map_map, List.map_map, GeneratedUnit.bindings, h.pins_eq]
  change u.bus.bindings.map id ++ (Emit.lines b.keys.interrupt b.pins).map PinLine.name = _
  rw [List.map_id]
  rfl

/-- The names of the bus and of the arrays: they are not bound to pins. -/
def fixedNames (b : Board) (u : GeneratedUnit) : List String :=
  u.bus.bindings ++ Emit.arrayNames b.pins

theorem filter_binders :
    ((b.binders u).filter fun x => x.2.isSome) = Emit.pinBinders b.pins ∧
      ((b.binders u).filter fun x => !x.2.isSome) =
        (b.fixedNames u).map fun name => (name, none) := by
  have hbus : ((u.bus.bindings.map fun name => (name, (none : Option Pin))).filter
      fun x => x.2.isSome) = [] := by
    rw [List.filter_eq_nil_iff]
    intro x hx
    obtain ⟨name, -, rfl⟩ := List.mem_map.1 hx
    simp
  have hbus' : ((u.bus.bindings.map fun name => (name, (none : Option Pin))).filter
      fun x => !x.2.isSome) = u.bus.bindings.map fun name => (name, none) := by
    rw [List.filter_eq_self]
    intro x hx
    obtain ⟨name, -, rfl⟩ := List.mem_map.1 hx
    rfl
  constructor
  · rw [binders, List.filter_append, hbus, Emit.filter_isSome_binders]
    rfl
  · rw [binders, List.filter_append, hbus', Emit.filter_not_isSome_binders, fixedNames,
      List.map_append]

theorem Compiled.nodup_fixedNames (h : Compiled b source u) : (b.fixedNames u).Nodup :=
  (Emit.nodup_arrayNames b.pins).sublist (h.bus.bindings_sublist.append_right _)

/-- The names for pins begin in their own ways, and the other names do not. -/
theorem Compiled.isHead_eq (h : Compiled b source u) {x : String × Option Pin}
    (hx : x ∈ b.binders u) : Pin.isHead x.1.toList = x.2.isSome := by
  obtain ⟨hpins, hothers⟩ := @filter_binders b u
  cases hkind : x.2.isSome with
  | true =>
    have hmem : x ∈ Emit.pinBinders b.pins := by
      rw [← hpins]
      exact List.mem_filter.2 ⟨hx, hkind⟩
    refine Emit.isHead_pinBinders (fun p hp => ?_) hmem
    obtain ⟨raw, hs⟩ := h.exists_spelt hp
    exact hs.isHead_name
  | false =>
    have hmem : x ∈ (b.fixedNames u).map fun name => (name, (none : Option Pin)) := by
      rw [← hothers]
      exact List.mem_filter.2 ⟨hx, by rw [hkind]; rfl⟩
    obtain ⟨name, hname, rfl⟩ := List.mem_map.1 hmem
    have hbus : ∀ s ∈ ["i2c", "i2c_bus", "mcp23x17", "ge"], Pin.isHead s.toList = false := by
      decide
    rcases List.mem_append.1 hname with hname | hname
    · exact hbus name (h.bus.bindings_sublist.subset hname)
    · exact Emit.not_isHead_arrayNames hname

/-- Two names for pins are equal only in rows and columns, if the spellings of the pins clash. -/
theorem Compiled.pairwise_pinBinders (h : Compiled b source u) :
    (Emit.pinBinders b.pins).Pairwise fun x y =>
      x.1 = y.1 → b.keys.layout.isGrid = false ∧ Emit.Doubled x y := by
  have hform : b.pins.isGrid = b.keys.layout.isGrid := Layout.isGrid_map _ _
  have hspelt := fun p (hp : p ∈ b.pins.toList) => h.exists_spelt hp
  have hunique := Emit.firstRepeat?_eq_none_iff.1 (sublist_unique h.unique)
  generalize b.pins = l at hform hspelt hunique
  cases l with
  | grid rows =>
    exact (Emit.pairwise_grid rows).imp fun hne heq => absurd heq hne
  | matrix rows cols =>
    have hmatrix : b.keys.layout.isGrid = false := hform.symm
    rw [hmatrix] at hspelt
    -- No pin of rows and columns is absent, so the check for repeated pins has seen all of them.
    have hnodup : (rows ++ cols).Nodup := by
      rwa [List.filter_eq_self.2 fun p hp => ?_] at hunique
      obtain ⟨raw, hs⟩ := hspelt p hp
      simpa using hs.ne_absent
    rw [Emit.pinBinders, List.pairwise_map]
    refine hnodup.imp_of_mem fun {p q} hp hq hne heq => ⟨hmatrix, ?_⟩
    dsimp only at heq
    obtain ⟨raw, hs⟩ := hspelt p hp
    obtain ⟨raw', hs'⟩ := hspelt q hq
    obtain ⟨m, i, n, j, rfl, rfl, hclash⟩ := hs.clash_of_name_eq hs' hne heq
    exact ⟨m, i, n, j, rfl, rfl, hclash⟩

/-- The names that the bus and the arrays of any unit may introduce, but for those of rows. -/
def otherNames : List String :=
  ["i2c", "i2c_bus", "mcp23x17", "ge", "input_pins", "output_pins", "direct_pins"]

/-- **Names clash only by an odd spelling.**  Two of the names that a unit introduces are equal only
if the keys stand in rows and columns and the names are those of two pins of the chip with
different spellings, one of which ends in a line feed or has a digit that is not of ASCII.  A grid
never repeats a name, and no name for a pin is one of the others. -/
theorem bindings_distinct (h : b.generate source = .ok u) :
    (u.pins = Emit.ofLines b.family b.keys.activeLow (Emit.lines b.keys.interrupt b.pins) ∧
      (b.binders u).map Prod.fst = u.bindings) ∧
    ((b.binders u).Pairwise fun x y =>
      x.1 = y.1 → b.keys.layout.isGrid = false ∧ Emit.Doubled x y) ∧
    (b.keys.layout.isGrid = true → u.bindings.Nodup) ∧
    ∀ x ∈ b.binders u, x.2.isSome = true →
      x.1 ∉ otherNames ∧ ∀ row, x.1 ≠ Emit.rowName row := by
  have hcompiled := generate_eq_ok_iff.1 h
  have hnames := map_fst_binders hcompiled
  have hpairs : (b.binders u).Pairwise fun x y =>
      x.1 = y.1 → b.keys.layout.isGrid = false ∧ Emit.Doubled x y := by
    obtain ⟨hpins, hothers⟩ := @filter_binders b u
    refine Emit.pairwise_of_heads (fun x hx => hcompiled.isHead_eq hx) ?_ ?_
    · rw [hpins]
      exact hcompiled.pairwise_pinBinders
    · rw [hothers, List.pairwise_map]
      exact hcompiled.nodup_fixedNames
  refine ⟨⟨hcompiled.pins_eq, hnames⟩, hpairs, fun hgrid => ?_, fun x hx hpin => ?_⟩
  · rw [← hnames, List.Nodup, List.pairwise_map]
    refine hpairs.imp fun hxy heq => ?_
    have hmatrix := (hxy heq).1
    rw [hgrid] at hmatrix
    cases hmatrix
  · have hhead := hcompiled.isHead_eq hx
    rw [hpin] at hhead
    have hothers : ∀ s ∈ otherNames, Pin.isHead s.toList = false := by decide
    constructor
    · intro hmem
      cases hhead.symm.trans (hothers _ hmem)
    · intro row heq
      rw [heq, Emit.not_isHead_rowName] at hhead
      cases hhead

/-- A board that spells one pin in two ways, one of them odd. -/
def stutter : Board where
  name := "stutter"
  chip := "STM32F411CE"
  family := .stm32
  keys := ⟨.matrix [.text "PA0", .text "PA0\n"] [.text "PA1"], false, true⟩
  bus := .none

/-- It is compiled to a unit with a repeated name, and there is no other cause for one. -/
theorem bindings_distinct_stutter :
    ∃ u, stutter.generate "" = .ok u ∧ ¬u.bindings.Nodup ∧
      (stutter.binders u).Pairwise fun x y =>
        x.1 = y.1 → stutter.keys.layout.isGrid = false ∧ Emit.Doubled x y := by
  obtain ⟨u, hu⟩ := exists_unit (b := stutter) (by decide) rfl ""
  have hpins : stutter.pins = .matrix [.mcu "PA0" 0, .mcu "PA0\n" 0] [.mcu "PA1" 1] := rfl
  have hlines : ∀ (i : Bool) (p q r : Pin), ∃ rest,
      (Emit.lines i (.matrix [p, q] [r])).map PinLine.name = p.name :: q.name :: rest :=
    fun _ _ _ _ => ⟨_, rfl⟩
  have hname : (Pin.mcu "PA0" 0).name = (Pin.mcu "PA0\n" 0).name := by decide
  refine ⟨u, hu, fun hnodup => ?_, (bindings_distinct hu).2.1⟩
  have hbindings := hnodup.sublist (List.sublist_append_right u.bus.bindings u.pins.bindings)
  obtain ⟨rest, hrest⟩ := hlines stutter.keys.interrupt (.mcu "PA0" 0) (.mcu "PA0\n" 0)
    (.mcu "PA1" 1)
  rw [← hpins] at hrest
  have hnames : u.pins.bindings = (Pin.mcu "PA0" 0).name :: (Pin.mcu "PA0\n" 0).name :: rest := by
    rw [(generate_eq_ok_iff.1 hu).pins_eq, ← hrest]
    rfl
  rw [hnames, hname, List.nodup_cons] at hbindings
  exact hbindings.1 List.mem_cons_self

end Board

end BoardWiring
