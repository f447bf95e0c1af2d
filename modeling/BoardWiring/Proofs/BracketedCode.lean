import BoardWiring.Proofs.ExpressionForms
import BoardWiring.Proofs.LineReadings
import BoardWiring.Proofs.Nesting
import BoardWiring.Proofs.Verdict
import Mathlib.Data.List.Chain

/-!
# Brackets of the generated code

The texts for the bus and for the pins are put together from fixed texts with gaps.  What stands in
a gap has no brackets and no semicolon, so the brackets of a line are those of its fixed texts.

* `Code.FitsGap` says of a text that it may stand in a gap;
* `Code.IsSingle` says of a text that it has no two semicolons in a row, and `Code.IsOpen` that it
  does not end with a semicolon either, so that more text can be put behind it;
* `Emit.nested_expression` says that the expressions for all pins are nested, and
  `PinLine.areBracketed_text` and `Bus.Built.areBracketed` are about the lines for the pins and for
  a bus (`Code.AreBracketed`);
* `Board.code_bracketed` says that the text for the bus and that for the pins are nested, that no
  bracket is open at the end of a line for the pins, and that there are no two semicolons in a row.
-/

namespace BoardWiring

open Code

namespace Code

/-! ### Texts in gaps -/

theorem eq_of_isBracket {c : Char} (h : isBracket c = true) :
    c ∈ ['(', '[', '\x7b', ')', ']', '\x7d'] := by
  cases hopening : closing? c with
  | some d =>
    unfold closing? at hopening
    split at hopening <;> simp_all
  | none =>
    have hclosing : isClosing c = true := by simpa [isBracket, hopening] using h
    simp only [isClosing, Bool.or_eq_true, beq_iff_eq] at hclosing
    rcases hclosing with (rfl | rfl) | rfl <;> decide

theorem isBracket_of_isPathChar {c : Char} (h : isPathChar c = true) : isBracket c = false := by
  have hall : ['(', '[', '\x7b', ')', ']', '\x7d'].all (fun d => !isPathChar d) = true := by decide
  by_contra hbracket
  have hno := List.all_eq_true.1 hall c (eq_of_isBracket (by simpa using hbracket))
  simp [h] at hno

/-! ### Semicolons -/

/-- A text without two semicolons in a row. -/
def IsSingle (cs : List Char) : Prop := cs.IsChain fun c d => ¬(c = ';' ∧ d = ';')

instance (cs : List Char) : Decidable (IsSingle cs) :=
  inferInstanceAs (Decidable (cs.IsChain fun c d => ¬(c = ';' ∧ d = ';')))

/-- A text without two semicolons in a row that does not end with one. -/
def IsOpen (s : String) : Prop := IsSingle s.toList ∧ s.toList.getLast? ≠ some ';'

instance (s : String) : Decidable (IsOpen s) := inferInstanceAs (Decidable (_ ∧ _))

theorem IsOpen.isSingle_append {s t : String} (hs : IsOpen s) (ht : IsSingle t.toList) :
    IsSingle (s ++ t).toList := by
  rw [IsSingle, String.toList_append, List.isChain_append]
  refine ⟨hs.1, ht, fun c hc d _ hboth => hs.2 ?_⟩
  rwa [← hboth.1]

theorem IsOpen.append {s t : String} (hs : IsOpen s) (ht : IsOpen t) : IsOpen (s ++ t) := by
  refine ⟨hs.isSingle_append ht.1, ?_⟩
  rw [String.toList_append, List.getLast?_append]
  cases hlast : t.toList.getLast? with
  | none => simpa [hlast] using hs.2
  | some c =>
    have hc := ht.2
    rw [hlast] at hc
    simpa using hc

/-- A fixed text is given by its characters, among which there are not two semicolons in a row. -/
theorem isSingle_ofList {cs : List Char} (h : IsSingle cs) :
    IsSingle (String.ofList cs).toList := by
  rwa [String.toList_ofList]

theorem isOpen_ofList {cs : List Char} (h : IsSingle cs ∧ cs.getLast? ≠ some ';') :
    IsOpen (String.ofList cs) := by
  rwa [IsOpen, String.toList_ofList]

theorem isOpen_of_not_mem {s : String} (h : ';' ∉ s.toList) : IsOpen s := by
  have hpairs : s.toList.Pairwise fun c d => ¬(c = ';' ∧ d = ';') :=
    List.pairwise_of_forall_mem_list fun c hc d _ hboth => h (hboth.1 ▸ hc)
  exact ⟨hpairs.isChain, fun hlast => h (List.mem_of_getLast? hlast)⟩

theorem isSingle_lines {ss : List String} (h : ∀ s ∈ ss, IsSingle s.toList) :
    IsSingle (String.intercalate "\n" ss).toList := by
  induction ss with
  | nil => decide
  | cons s ss ih =>
    cases ss with
    | nil => simpa using h s List.mem_cons_self
    | cons t ss =>
      have hrest := ih fun x hx => h x (List.mem_cons_of_mem _ hx)
      rw [String.intercalate_cons_cons, String.append_assoc, IsSingle, String.toList_append,
        List.isChain_append]
      refine ⟨h s List.mem_cons_self, ?_, ?_⟩
      · exact IsOpen.isSingle_append (by decide) hrest
      · intro c _ d hd hboth
        rw [Text.head?_append (c := '\n') (by decide)] at hd
        cases hd
        exact absurd hboth.2 (by decide)

theorem IsSingle.not_isInfix {cs : List Char} (h : IsSingle cs) : ¬";;".toList <:+: cs := by
  intro hinfix
  have hpair : IsSingle ";;".toList := List.IsChain.infix h hinfix
  exact absurd hpair (by decide)

section Gaps

variable {family : Family} {s : String}

/-- A text that may stand in a gap has no brackets and no semicolon. -/
structure FitsGap (s : String) : Prop where
  brackets_eq : brackets s = []
  isOpen : IsOpen s

theorem FitsGap.of_forall (h : ∀ c ∈ s.toList, isBracket c = false ∧ c ≠ ';') : FitsGap s where
  brackets_eq := brackets_eq_nil fun c hc => (h c hc).1
  isOpen := isOpen_of_not_mem fun hc => (h ';' hc).2 rfl

theorem fits_of_isPathChar {c : Char} (h : isPathChar c = true) :
    isBracket c = false ∧ c ≠ ';' := by
  refine ⟨isBracket_of_isPathChar h, ?_⟩
  rintro rfl
  exact absurd h (by decide)

theorem fits_of_mem_binding (h : Name.IsBinding s) :
    ∀ c ∈ s.toList, isBracket c = false ∧ c ≠ ';' := fun c hc =>
  fits_of_isPathChar (PinLine.isPathChar_of_isBindingChar (h.chars c hc))

theorem fitsGap_binding (h : Name.IsBinding s) : FitsGap s := .of_forall (fits_of_mem_binding h)

theorem fitsGap_items {items : List String} (h : ∀ item ∈ items, Name.IsBinding item) :
    FitsGap (String.intercalate ", " items) := by
  have hcomma : ∀ c ∈ [',', ' '], isBracket c = false ∧ c ≠ ';' :=
    List.forall_mem_cons.2 ⟨by decide, List.forall_mem_singleton.2 (by decide)⟩
  refine .of_forall fun c hc => ?_
  rw [String.toList_intercalate] at hc
  rcases Name.mem_intercalate hc with hc | ⟨w, hw, hc⟩
  · exact hcomma c hc
  · obtain ⟨item, hitem, rfl⟩ := List.mem_map.1 hw
    exact fits_of_mem_binding (h item hitem) c hc

/-- The name of a pin of the chip may end in a line feed, which fits too. -/
theorem fitsGap_raw {n : Nat} (h : Grammar.number? family s.toList = some n) : FitsGap s := by
  have hletters : "PINgpio_01".toList.all isPathChar = true := by decide
  exact .of_forall <| Grammar.forall_mem_of_number?
    (fun c hc => fits_of_isPathChar (List.all_eq_true.1 hletters c hc))
    (fun c hc => fits_of_isPathChar (isPathChar_of_port hc))
    (fun c v hv => fits_of_isPathChar (isPathChar_of_digitValue? hv)) (by decide) h

theorem fitsGap_signed (i : Int) : FitsGap (Digits.signed i) :=
  .of_forall <| Digits.forall_mem_signed (P := fun c => isBracket c = false ∧ c ≠ ';') (by decide)
    (by decide) i

theorem fitsGap_hexByte (i : Int) : FitsGap (Digits.hexByte i) :=
  .of_forall <| Digits.forall_mem_hexByte (P := fun c => isBracket c = false ∧ c ≠ ';') (by decide)
    (by decide) i

end Gaps

end Code

/-! ### Expressions -/

namespace Emit

variable {family : Family} {role : Role} {pin : Pin} {activeLow : Bool} {name : String}

/-- An expression is that for a plain output or input of the chip, the one for an input that wakes
the processor, or that for a pin of the expander. -/
theorem expression_induction {Q : String → Prop} (h : Serves family role pin)
    (houtput : ∀ name, FitsGap name → Q (output family name activeLow))
    (hinput : ∀ name, FitsGap name → Q (input family name activeLow))
    (hwake : ∀ name number, FitsGap name → Q (hal family ++ "::exti::ExtiInput::new(" ++
      input family name activeLow ++ ", p.EXTI" ++ Digits.signed number ++ ".degrade())"))
    (hremote : ∀ p, Q (Expander.pinText p role)) : Q (expression family pin role activeLow) := by
  obtain ⟨hsound, hrole, hnamed⟩ := h
  cases pin with
  | absent => cases hsound
  | expander p =>
    have hplain : role ≠ .interruptInput := by
      rintro rfl
      cases hrole
    rw [expression_expander hsound hplain]
    exact hremote p
  | mcu name number =>
    obtain ⟨n, rfl, hn⟩ := hnamed name number List.mem_cons_self
    have hname := fitsGap_raw hn
    cases role with
    | output => exact houtput name hname
    | input => exact hinput name hname
    | interruptInput =>
      cases family with
      | stm32 =>
        have hline : 0 ≤ (n : Int) ∧ (n : Int) < interruptLines :=
          ⟨by omega, by have hlt := lt_of_capable hrole; unfold interruptLines; omega⟩
        simp only [expression, initialiser, interruptInput, if_pos hline]
        exact hwake name n hname
      | nrf52 => exact hinput name hname
      | rp2040 => exact hinput name hname
      | esp32 => exact hinput name hname

theorem brackets_hal (family : Family) : brackets (hal family) = [] := by
  cases family <;> decide

theorem brackets_level (activeLow : Bool) : brackets (level activeLow) = [] := by
  cases activeLow <;> decide

theorem brackets_pull (activeLow : Bool) : brackets (pull activeLow) = [] := by
  cases activeLow <;> decide

theorem brackets_setter (activeLow : Bool) : brackets (setter activeLow) = [] := by
  cases activeLow <;> decide

theorem nested_output (h : FitsGap name) : Nested (brackets (output family name activeLow)) := by
  unfold output
  cases family <;>
    simp only [brackets_append, brackets_hal, brackets_level, brackets_setter, h.brackets_eq] <;>
    decide +kernel

theorem nested_input (h : FitsGap name) : Nested (brackets (input family name activeLow)) := by
  unfold input
  cases family <;> simp only [brackets_append, brackets_hal, brackets_pull, h.brackets_eq] <;>
    decide +kernel

theorem nested_wake (number : Int) (h : FitsGap name) :
    Nested (brackets (hal family ++ "::exti::ExtiInput::new(" ++ input family name activeLow ++
      ", p.EXTI" ++ Digits.signed number ++ ".degrade())")) := by
  have hopening : brackets "::exti::ExtiInput::new(" = ['('] := by decide
  have hline : brackets ", p.EXTI" = [] := by decide
  have hclosing : brackets ".degrade())" = ['(', ')', ')'] := by decide
  have hinside : Nested (brackets (input family name activeLow) ++ ['(', ')']) :=
    (nested_input h).append (by decide)
  simp only [brackets_append, brackets_hal, hopening, hline, hclosing,
    (fitsGap_signed number).brackets_eq, List.append_nil, List.nil_append]
  simpa using Nested.group (c := '(') rfl hinside .nil

/-- The two numbers in the expression for a pin of the expander bring no brackets with them. -/
theorem nested_pinText (p : ExpanderPin) (role : Role) :
    Nested (brackets (Expander.pinText p role)) := by
  have hbank : brackets (String.singleton p.bank.letter) = [] := by
    cases p.bank <;> decide
  have htype : brackets (Expander.pinType role) = [] := by
    cases role <;> decide
  unfold Expander.pinText
  simp only [brackets_append, hbank, htype, (fitsGap_hexByte _).brackets_eq,
    (fitsGap_signed _).brackets_eq]
  decide +kernel

/-- **The brackets of an expression are nested.** -/
theorem nested_expression (h : Serves family role pin) :
    Nested (brackets (expression family pin role activeLow)) :=
  expression_induction (Q := fun s => Nested (brackets s)) h (fun _ hname => nested_output hname)
    (fun _ hname => nested_input hname) (fun _ number hname => nested_wake number hname)
    fun p => nested_pinText p role

theorem handedOn_isOpen : HandedOn IsOpen where
  append := IsOpen.append
  fixed := by decide +kernel

theorem isOpen_expression (h : Serves family role pin) :
    IsOpen (expression family pin role activeLow) := by
  refine expression_induction (Q := IsOpen) h (fun _ hname => handedOn_isOpen.output hname.isOpen)
    (fun _ hname => handedOn_isOpen.input hname.isOpen) (fun _ number hname => ?_) fun p => ?_
  · have hinput := @HandedOn.input _ family activeLow _ handedOn_isOpen hname.isOpen
    exact (((((handedOn_isOpen.hal family).append (by decide)).append hinput).append
      (by decide)).append (fitsGap_signed number).isOpen).append (by decide)
  · rw [Expander.pinText_eq]
    exact (handedOn_isOpen.expanderOpening role).append <| IsOpen.append (by decide) <|
      handedOn_isOpen.expanderClosing (fitsGap_hexByte _).isOpen (fitsGap_signed _).isOpen

end Emit

/-! ### Lines -/

namespace Code

/-- Lines that close the brackets that they open, and have no two semicolons in a row. -/
structure AreBracketed (lines : List String) : Prop where
  nested : Nested (lines.flatMap brackets)
  single : ∀ line ∈ lines, IsSingle line.toList

variable {lines lines' : List String}

theorem areBracketed_nil : AreBracketed [] := ⟨.nil, fun _ hline => by cases hline⟩

theorem AreBracketed.append (h : AreBracketed lines) (h' : AreBracketed lines') :
    AreBracketed (lines ++ lines') where
  nested := by
    rw [List.flatMap_append]
    exact h.nested.append h'.nested
  single := fun line hline => (List.mem_append.1 hline).elim (h.single line) (h'.single line)

theorem areBracketed_of_forall (h : ∀ line ∈ lines, AreBracketed [line]) : AreBracketed lines := by
  induction lines with
  | nil => exact areBracketed_nil
  | cons line lines ih =>
    exact (h line List.mem_cons_self).append (ih fun x hx => h x (List.mem_cons_of_mem _ hx))

theorem AreBracketed.nested_text (h : AreBracketed lines) :
    Nested (String.intercalate "\n" lines).toList := by
  rw [← nested_brackets_iff, brackets_intercalate (by decide)]
  exact h.nested

theorem AreBracketed.depth?_eq (h : AreBracketed lines) :
    depth? (String.intercalate "\n" lines) = some 0 := by
  rw [depth?, h.nested_text.awaited?_eq]
  rfl

theorem AreBracketed.not_isInfix (h : AreBracketed lines) :
    ¬";;".toList <:+: (String.intercalate "\n" lines).toList :=
  (isSingle_lines h.single).not_isInfix

end Code

namespace Fragment

theorem render_plain (f : Fragment) : f.render "" = String.intercalate "\n" f.lines := by
  have hplain : ∀ line ∈ f.lines, indented "" line = line := by
    intro line _
    unfold indented
    split_ifs with hempty
    · exact hempty.symm
    · exact String.empty_append
  rw [render, List.map_congr_left hplain, List.map_id']

end Fragment

namespace PinLine

variable {family : Family} {activeLow : Bool} {x : PinLine}

theorem nested_value (hx : x.IsNamed) (hready : x.IsReady family) :
    Nested (brackets (x.value family activeLow)) := by
  cases x with
  | bound name pin role wrap =>
    have hserves : Emit.Serves family role pin := hready name pin role wrap rfl
    have hnested := @Emit.nested_expression family role pin activeLow hserves
    cases wrap with
    | plain => exact hnested
    | some =>
      have hopening : brackets "Some(" = ['('] := by decide
      have hclosing : brackets ")" = [')'] := by decide
      rw [value, Emit.Wrap.apply, brackets_append, brackets_append, hopening, hclosing]
      exact .group rfl hnested .nil
  | empty name =>
    rw [value]
    decide
  | array name items =>
    have hopening : brackets "[" = ['['] := by decide
    have hclosing : brackets "]" = [']'] := by decide
    have hitems : brackets (String.intercalate ", " items) = [] :=
      (fitsGap_items hx.2).brackets_eq
    rw [value, brackets_append, brackets_append, hopening, hclosing, hitems]
    decide

theorem isOpen_value (hx : x.IsNamed) (hready : x.IsReady family) :
    IsOpen (x.value family activeLow) := by
  cases x with
  | bound name pin role wrap =>
    have hserves : Emit.Serves family role pin := hready name pin role wrap rfl
    have hopen := @Emit.isOpen_expression family role pin activeLow hserves
    cases wrap with
    | plain => exact hopen
    | some => exact (IsOpen.append (by decide) hopen).append (by decide)
  | empty name =>
    rw [value]
    decide
  | array name items =>
    exact (IsOpen.append (by decide) (fitsGap_items hx.2).isOpen).append (by decide)

theorem areBracketed_text (hx : x.IsNamed) (hready : x.IsReady family) :
    AreBracketed [x.text family activeLow] where
  nested := by
    have hlet : brackets "let " = [] := by decide
    have hequals : brackets " = " = [] := by decide
    have hend : brackets ";" = [] := by decide
    simp only [text, List.flatMap_singleton, brackets_append, hlet, hequals, hend,
      (fitsGap_binding hx.1).brackets_eq, List.nil_append, List.append_nil]
    exact nested_value hx hready
  single := by
    rw [List.forall_mem_singleton, text]
    refine IsOpen.isSingle_append ?_ (by decide)
    exact (((IsOpen.append (by decide) (fitsGap_binding hx.1).isOpen).append (by decide)).append
      (isOpen_value hx hready))

end PinLine

/-! ### Lines for the bus -/

namespace Bus

variable {family : Family} {s : BusSettings} {shared : Bool} {bus : Fragment}

theorem fitsGap_pin {v : Value} {q : Pin} (h : Pin.readOnChip family v = .ok q) :
    FitsGap q.text := by
  obtain ⟨raw, n, rfl, hn⟩ := Pin.named_of_readOnChip h
  exact fitsGap_raw hn

theorem isSingle_gap {head gap closing : String} (hhead : IsOpen head) (hgap : FitsGap gap)
    (hclosing : IsSingle closing.toList) : IsSingle (head ++ gap ++ closing).toList :=
  (hhead.append hgap.isOpen).isSingle_append hclosing

/-- The lines that construct a bus are bracketed, but not each for itself. -/
theorem areBracketed_construct {p : Plan} (h : plan family s = .ok p) :
    AreBracketed (construct family p) := by
  obtain ⟨hsda, hscl, -⟩ := plan_eq_ok_iff.1 h
  have hsda' := fitsGap_pin hsda
  have hscl' := fitsGap_pin hscl
  have hfrequency := fitsGap_signed p.frequency
  constructor
  · cases family <;>
      simp only [construct, List.flatMap_cons, List.flatMap_nil, brackets_append,
        hsda'.brackets_eq, hscl'.brackets_eq, hfrequency.brackets_eq] <;>
      decide +kernel
  · have hpins : ∀ {q q' : Pin} {head : String}, FitsGap q.text → FitsGap q'.text → IsOpen head →
        IsSingle (head ++ q.text ++ ", p." ++ q'.text ++ ", config)").toList :=
      fun hq hq' hhead =>
        isSingle_gap ((hhead.append hq.isOpen).append (by decide)) hq' (by decide)
    cases family with
    | esp32 => exact fun _ hline => by cases hline
    | stm32 =>
      simp only [construct, List.forall_mem_cons]
      exact ⟨isSingle_ofList (by decide), isSingle_ofList (by decide),
        isSingle_gap (by decide) hscl' (by decide), isSingle_gap (by decide) hsda' (by decide),
        isSingle_gap (isOpen_ofList (by decide)) hfrequency (by decide),
        isSingle_ofList (by decide), by decide, fun _ hline => by cases hline⟩
    | nrf52 =>
      simp only [construct, List.forall_mem_cons]
      exact ⟨isSingle_ofList (by decide), isSingle_ofList (by decide),
        isSingle_gap (isOpen_ofList (by decide)) hfrequency (by decide),
        isSingle_ofList (by decide), hpins hsda' hscl' (isOpen_ofList (by decide)), by decide,
        IsOpen.isSingle_append (isOpen_ofList (by decide)) (isSingle_ofList (by decide)),
        fun _ hline => by cases hline⟩
    | rp2040 =>
      simp only [construct, List.forall_mem_cons]
      exact ⟨isSingle_ofList (by decide), isSingle_ofList (by decide),
        isSingle_gap (isOpen_ofList (by decide)) hfrequency (by decide),
        hpins hscl' hsda' (isOpen_ofList (by decide)), by decide, fun _ hline => by cases hline⟩

theorem areBracketed_newExpander (a0 a1 a2 : Bool) :
    AreBracketed ["let mut mcp23x17 = ::port_expander::Mcp23x17::new_mcp23017(" ++
      Expander.sharedBusDevice ++ ", " ++ Expander.level a0 ++ ", " ++ Expander.level a1 ++ ", " ++
      Expander.level a2 ++ ");"] := by
  have hlevel : ∀ b, brackets (Expander.level b) = [] ∧ IsOpen (Expander.level b) := fun b => by
    cases b <;> decide
  constructor
  · simp only [List.flatMap_singleton, brackets_append, (hlevel _).1]
    decide +kernel
  · have hcomma : IsOpen ", " := by decide
    have hdevice : IsOpen Expander.sharedBusDevice := by decide
    rw [List.forall_mem_singleton]
    simp only [String.append_assoc]
    exact (isOpen_ofList (by decide)).isSingle_append <| hdevice.isSingle_append <|
      hcomma.isSingle_append <| (hlevel a0).2.isSingle_append <| hcomma.isSingle_append <|
      (hlevel a1).2.isSingle_append <| hcomma.isSingle_append <|
      (hlevel a2).2.isSingle_append (by decide)

theorem areBracketed_expander (address : Int) :
    AreBracketed (expanderStatements address).lines := by
  cases h : ExpanderPin.isAddress address with
  | false =>
    simp only [expanderStatements, Expander.bringUp, h, Bool.false_eq_true, if_false]
    exact areBracketed_nil
  | true =>
    simp only [expanderStatements, Expander.bringUp, h, if_true, Fragment.ofLines]
    refine (areBracketed_newExpander _ _ _).append ⟨by decide +kernel, ?_⟩
    rw [List.forall_mem_cons, List.forall_mem_singleton]
    exact ⟨isSingle_ofList (by decide), isSingle_ofList (by decide)⟩

/-- **The lines for a bus are bracketed.** -/
theorem Built.areBracketed (h : Built family s shared bus) : AreBracketed bus.lines := by
  have hsharing : AreBracketed [Expander.sharedBusStatement] :=
    ⟨by decide +kernel, List.forall_mem_singleton.2 (by decide +kernel)⟩
  cases h with
  | disabled => exact areBracketed_nil
  | unsupported _ hfam =>
    cases family with
    | esp32 =>
      refine ⟨by decide +kernel, ?_⟩
      rw [standIn, List.forall_mem_cons, List.forall_mem_singleton]
      exact ⟨by decide +kernel, isSingle_ofList (by decide)⟩
    | stm32 => cases hfam
    | nrf52 => cases hfam
    | rp2040 => cases hfam
  | constructed _ _ settings =>
    rw [lines_statements]
    refine (areBracketed_construct settings).append (AreBracketed.append ?_ ?_)
    · split_ifs
      · exact hsharing
      · exact areBracketed_nil
    · split_ifs
      · exact areBracketed_expander s.address
      · exact areBracketed_nil

end Bus

namespace Board

variable {b : Board} {source : String} {u : GeneratedUnit}

theorem Compiled.areBracketed_pins (h : Compiled b source u) :
    ∀ line ∈ u.pins.lines, AreBracketed [line] := by
  intro line hline
  rw [h.lines_eq] at hline
  obtain ⟨x, hx, rfl⟩ := List.mem_map.1 hline
  exact PinLine.areBracketed_text (h.isNamed_lines x hx) (h.isReady_lines x hx)

/-- **The generated code closes every bracket that it opens.**  The text for the bus and that for
the pins are nested, no bracket is open at the end of any line for the pins, and neither text has
two semicolons in a row. -/
theorem code_bracketed (h : b.generate source = .ok u) :
    Nested (u.bus.render "").toList ∧ Nested (u.pins.render "").toList ∧
      (∀ before line after, u.pins.lines = before ++ line :: after →
        depth? (String.intercalate "\n" (before ++ [line])) = some 0) ∧
      ¬";;".toList <:+: (u.bus.render "").toList ∧ ¬";;".toList <:+: (u.pins.render "").toList := by
  have hcompiled := generate_eq_ok_iff.1 h
  have hbus := hcompiled.bus.areBracketed
  have hlines := hcompiled.areBracketed_pins
  have hpins := areBracketed_of_forall hlines
  rw [Fragment.render_plain, Fragment.render_plain]
  refine ⟨hbus.nested_text, hpins.nested_text, fun before line after hcut => ?_, hbus.not_isInfix,
    hpins.not_isInfix⟩
  -- The lines up to this one are bracketed, each for itself.
  refine AreBracketed.depth?_eq (areBracketed_of_forall fun x hx => hlines x ?_)
  rw [hcut, ← List.singleton_append, ← List.append_assoc]
  exact List.mem_append_left after hx

/-- A board with interrupts, and an expander on its bus. -/
def ladder : Board where
  name := "ladder"
  chip := "STM32F411CE"
  family := .stm32
  keys := ⟨.matrix [.text "PB12", .text "PA3"] [.text "PA8", .text "MI25_B7"], true, false⟩
  bus := ⟨true, .text "PB7", .text "PB6", .int 400, true, 0x25⟩

/-- All brackets are closed at the end of the first line for its pins. -/
theorem code_bracketed_ladder :
    ∃ u, ladder.generate "" = .ok u ∧ Nested (u.bus.render "").toList ∧
      ∃ line rest, u.pins.lines = line :: rest ∧ depth? line = some 0 := by
  obtain ⟨u, hu⟩ := exists_unit (b := ladder) (by decide) rfl ""
  obtain ⟨hbus, -, hdepth, -, -⟩ := code_bracketed hu
  refine ⟨u, hu, hbus, ?_⟩
  have hlines := (generate_eq_ok_iff.1 hu).lines_eq
  have hne : u.pins.lines ≠ [] := by
    rw [hlines]
    exact List.cons_ne_nil _ _
  obtain ⟨line, rest, hcons⟩ := List.exists_cons_of_ne_nil hne
  exact ⟨line, rest, hcons, by simpa using hdepth [] line rest hcons⟩

end Board

end BoardWiring
