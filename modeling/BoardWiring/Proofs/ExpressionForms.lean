import BoardWiring.Proofs.BindingNames
import BoardWiring.Proofs.ExpressionTexts

/-!
# Reading a line for a pin back

The expression for a pin begins with a fixed text, and no such text begins like another one, so
its form is read off its beginning.  Behind the beginning stands what tells the pin, up to the
first character that cannot belong to it, and behind that the level or the pull.

* `Emit.Form` are the forms of the expressions, and `Emit.Form.eq_of_append` says that a text has
  one of them at most;
* `Text.word_inj` reads back a word that begins no other one, and `Text.gap_inj` what stands in a
  gap;
* `Emit.expression_inj` says that an expression tells its pin, and its level if the pin is one of
  the chip; `PinLine.text_inj` says the same of the lines.
-/

namespace BoardWiring

/-! ### Gaps -/

namespace Text

/-- Of two texts that begin one text, one begins the other. -/
theorem prefix_or_prefix {s t a b : String} (h : s ++ a = t ++ b) :
    s.toList <+: t.toList ∨ t.toList <+: s.toList := by
  have hlist := congrArg String.toList h
  rw [String.toList_append, String.toList_append] at hlist
  refine List.prefix_or_prefix_of_prefix (List.prefix_append _ a.toList) ?_
  rw [hlist]
  exact List.prefix_append _ _

/-- A word that begins no other one tells what it stands for, whatever follows. -/
theorem word_inj {α : Type} {word : α → String}
    (hfree : ∀ x y, (word x).toList <+: (word y).toList → x = y) {x y : α} {s t : String}
    (h : word x ++ s = word y ++ t) : x = y ∧ s = t := by
  have hword : x = y := by
    rcases prefix_or_prefix h with hpre | hpre
    · exact hfree x y hpre
    · exact (hfree y x hpre).symm
  rw [hword, String.append_right_inj] at h
  exact ⟨hword, h⟩

theorem cut_inj {xs ys as bs : List Char} {c : Char} (hx : c ∉ xs) (hy : c ∉ ys)
    (h : xs ++ c :: as = ys ++ c :: bs) : xs = ys ∧ as = bs := by
  induction xs generalizing ys with
  | nil =>
    cases ys with
    | nil => exact ⟨rfl, (List.cons.inj h).2⟩
    | cons y ys => exact absurd ((List.cons.inj h).1 ▸ List.mem_cons_self) hy
  | cons x xs ih =>
    cases ys with
    | nil => exact absurd ((List.cons.inj h).1 ▸ List.mem_cons_self) hx
    | cons y ys =>
      obtain ⟨rfl, htail⟩ := List.cons.inj h
      rw [List.mem_cons, not_or] at hx hy
      obtain ⟨rfl, rfl⟩ := ih hx.2 hy.2 htail
      exact ⟨rfl, rfl⟩

/-- What stands before a character is read back if the character is not in it. -/
theorem gap_inj {s t a b : String} {c : Char} (hs : c ∉ s.toList) (ht : c ∉ t.toList)
    (ha : a.toList.head? = some c) (hb : b.toList.head? = some c) (h : s ++ a = t ++ b) :
    s = t ∧ a = b := by
  have hlist := congrArg String.toList h
  rw [String.toList_append, String.toList_append] at hlist
  obtain ⟨as, has⟩ := List.head?_eq_some_iff.1 ha
  obtain ⟨bs, hbs⟩ := List.head?_eq_some_iff.1 hb
  rw [has, hbs] at hlist
  obtain ⟨hst, hab⟩ := cut_inj hs ht hlist
  refine ⟨String.toList_inj.1 hst, String.toList_inj.1 ?_⟩
  rw [has, hbs, hab]

end Text

/-! ### Forms of expressions -/

namespace Emit

/-- The forms of the expressions for pins: three for those of the chip, two for those of the
expander. -/
inductive Form where
  | output
  | input
  | wake
  | remoteOutput
  | remoteInput
  deriving DecidableEq

namespace Form

/-- The form is one of a pin of the expander. -/
def isRemote : Form → Bool
  | .remoteOutput | .remoteInput => true
  | _ => false

/-- The text that the expressions for pins of the chip, or of the expander, begin with. -/
def lead (family : Family) (remote : Bool) : String :=
  if remote then Expander.driver ++ "::"
  else
    match family with
    | .esp32 => "\x7b let mut pin = " ++ hal family
    | _ => hal family

/-- The words that tell the form. -/
def head (family : Family) : Form → String
  | .output =>
    match family with
    | .stm32 => "::gpio::Output::new(p."
    | .nrf52 | .rp2040 => "::gpio::Output::new("
    | .esp32 => "::gpio::PinDriver::output(p.pins."
  | .input =>
    match family with
    | .stm32 => "::gpio::Input::new(p."
    | .nrf52 | .rp2040 => "::gpio::Input::new("
    | .esp32 => "::gpio::PinDriver::input(p.pins."
  | .wake => "::exti::ExtiInput::new("
  | .remoteOutput => "Output"
  | .remoteInput => "Input"

/-- The text between the form and what tells the pin. -/
def bridge (family : Family) : Form → String
  | .output | .input =>
    match family with
    | .stm32 | .esp32 => ""
    | .nrf52 | .rp2040 => hal family ++ "::gpio::AnyPin::from(p."
  | .wake => hal family ++ "::gpio::Input::new(p."
  | .remoteOutput | .remoteInput =>
    "::new(" ++ Expander.sharedBusDevice ++ ", " ++ Expander.driver ++ "::Pin::new(0x"

/-- The text that an expression begins with, up to what tells the pin. -/
def opening (family : Family) (f : Form) : String :=
  lead family f.isRemote ++ (head family f ++ bridge family f)

/-- The text between what tells the pin and what tells its level. -/
def middle (family : Family) : Form → String
  | .output =>
    match family with
    | .stm32 => ", " ++ hal family ++ "::gpio::Level::"
    | .nrf52 | .rp2040 => "), " ++ hal family ++ "::gpio::Level::"
    | .esp32 => ".downgrade_output()).unwrap(); pin."
  | .input | .wake =>
    match family with
    | .stm32 => ", " ++ hal family ++ "::gpio::Pull::"
    | .nrf52 | .rp2040 => "), " ++ hal family ++ "::gpio::Pull::"
    | .esp32 => ".downgrade_input()).unwrap(); pin.set_pull(" ++ hal family ++ "::gpio::Pull::"
  | .remoteOutput | .remoteInput => ", " ++ Expander.driver ++ "::Bank::"

/-- The word for the level of an output or the pull of an input. -/
def idle (family : Family) (activeLow : Bool) : Form → String
  | .output =>
    match family with
    | .esp32 => setter activeLow
    | _ => level activeLow
  | _ => pull activeLow

/-- The text behind the level, or behind the bank of a pin of the expander.  The number of the pin
stands in it where it tells the interrupt line, or the pin of the bank. -/
def ending (family : Family) (number : Int) : Form → String
  | .output =>
    match family with
    | .stm32 => ", " ++ hal family ++ "::gpio::Speed::VeryHigh).degrade()"
    | .nrf52 => ", " ++ hal family ++ "::gpio::OutputDrive::Standard)"
    | .rp2040 => ")"
    | .esp32 => "().unwrap(); pin \x7d"
  | .input =>
    match family with
    | .stm32 => ").degrade()"
    | .nrf52 | .rp2040 => ")"
    | .esp32 => ").unwrap(); pin \x7d"
  | .wake => ").degrade(), p.EXTI" ++ Digits.signed number ++ ".degrade())"
  | .remoteOutput | .remoteInput => ", " ++ Digits.signed number ++ ")).unwrap()"

/-- The form of the expression for a pin. -/
def of (family : Family) (role : Role) : Pin → Form
  | .expander _ =>
    match role with
    | .output => .remoteOutput
    | _ => .remoteInput
  | _ =>
    match role with
    | .output => .output
    | .input => .input
    | .interruptInput => if family = .stm32 then .wake else .input

@[simp] theorem isRemote_of (family : Family) (role : Role) (p : Pin) :
    (of family role p).isRemote = p.isExpander := by
  cases p <;> cases role <;> cases family <;> rfl

/-- The character that ends what tells the pin. -/
def stop (family : Family) : Form → Char
  | .remoteOutput | .remoteInput => ','
  | _ =>
    match family with
    | .stm32 => ','
    | .nrf52 | .rp2040 => ')'
    | .esp32 => '.'

/-- **A text has one form at most.** -/
theorem eq_of_append {family : Family} {f g : Form} {s t : String}
    (h : opening family f ++ s = opening family g ++ t) : f = g ∧ s = t := by
  have hleads : ∀ r r', (lead family r).toList <+: (lead family r').toList → r = r' := by
    cases family <;> decide +kernel
  have hheads : ∀ f g : Form, f.isRemote = g.isRemote →
      (head family f).toList <+: (head family g).toList → f = g := by
    intro f g
    cases family <;> cases f <;> cases g <;> decide +kernel
  unfold opening at h
  simp only [String.append_assoc] at h
  -- The leads agree, so both forms are of the chip or both of the expander; then the words agree.
  obtain ⟨hremote, h⟩ := Text.word_inj hleads h
  have hform : f = g := by
    rcases Text.prefix_or_prefix h with hpre | hpre
    · exact hheads f g hremote hpre
    · exact (hheads g f hremote.symm hpre).symm
  subst hform
  rw [String.append_right_inj, String.append_right_inj] at h
  exact ⟨rfl, h⟩

theorem head?_middle (family : Family) (f : Form) :
    (middle family f).toList.head? = some (stop family f) := by
  cases family <;> cases f <;> decide

theorem idle_inj {family : Family} {f : Form} {a b : Bool} {s t : String}
    (h : idle family a f ++ s = idle family b f ++ t) : a = b := by
  have happart : ∀ a b, (idle family a f).toList <+: (idle family b f).toList → a = b := by
    cases family <;> cases f <;> decide
  exact (Text.word_inj happart h).1

end Form

/-! ### Expressions -/

variable {family : Family} {activeLow activeLow' : Bool} {role role' : Role}

theorem output_eq (name : String) (number : Int) : output family name activeLow =
    Form.opening family .output ++ (name ++ (Form.middle family .output ++
      (Form.idle family activeLow .output ++ Form.ending family number .output))) := by
  unfold output Form.opening Form.lead Form.isRemote Form.head Form.bridge Form.middle Form.idle
    Form.ending
  cases family <;>
    simp only [Bool.false_eq_true, if_false, String.append_assoc, String.empty_append]

theorem input_eq (name : String) (number : Int) : input family name activeLow =
    Form.opening family .input ++ (name ++ (Form.middle family .input ++
      (Form.idle family activeLow .input ++ Form.ending family number .input))) := by
  unfold input Form.opening Form.lead Form.isRemote Form.head Form.bridge Form.middle Form.idle
    Form.ending
  cases family <;>
    simp only [Bool.false_eq_true, if_false, String.append_assoc, String.empty_append]

theorem interruptInput_eq {name : String} {number : Int} {e : String}
    (h : interruptInput .stm32 name number activeLow = .ok e) : e =
    Form.opening .stm32 .wake ++ (name ++ (Form.middle .stm32 .wake ++
      (Form.idle .stm32 activeLow .wake ++ Form.ending .stm32 number .wake))) := by
  have hclosing : ").degrade(), p.EXTI" = ").degrade()" ++ ", p.EXTI" := rfl
  unfold interruptInput at h
  simp only at h
  split_ifs at h
  cases h
  unfold input Form.opening Form.lead Form.isRemote Form.head Form.bridge Form.middle Form.idle
    Form.ending
  simp only [Bool.false_eq_true, if_false, String.append_assoc, hclosing]

/-- A pin can serve in its role, and has a name of the family. -/
def Serves (family : Family) (role : Role) (pin : Pin) : Prop :=
  pin.isSound = true ∧ roleFault? family pin role = none ∧ Pin.AreNamed family [pin]

theorem expression_chip {name : String} {number : Int}
    (h : roleFault? family (.mcu name number) role = none) :
    expression family (.mcu name number) role activeLow =
      Form.opening family (Form.of family role (.mcu name number)) ++ (name ++
        (Form.middle family (Form.of family role (.mcu name number)) ++
          (Form.idle family activeLow (Form.of family role (.mcu name number)) ++
            Form.ending family number (Form.of family role (.mcu name number))))) := by
  cases role with
  | output => exact output_eq name number
  | input => exact input_eq name number
  | interruptInput =>
    cases family with
    | stm32 =>
      have hline : 0 ≤ number ∧ number < 16 := line_of_capable h
      have hshort : isShort .stm32 .interruptInput (.mcu name number) = true :=
        Digits.isWritable_of_lt (by omega)
      have hstop : stopFault? .stm32 (.mcu name number) .interruptInput = none := by
        rw [stopFault?_of_short hshort]
        rfl
      have hinit := @initialiser_eq .stm32 (.mcu name number) .interruptInput activeLow hstop
      rw [h] at hinit
      exact interruptInput_eq hinit
    | nrf52 => exact @input_eq .nrf52 activeLow name number
    | rp2040 => exact @input_eq .rp2040 activeLow name number
    | esp32 => exact @input_eq .esp32 activeLow name number

theorem expression_remote {p : ExpanderPin} (hbank : p.inBank = true)
    (h : roleFault? family (.expander p) role = none) :
    expression family (.expander p) role activeLow =
      Form.opening family (Form.of family role (.expander p)) ++ (Digits.hexByte p.address ++
        (Form.middle family (Form.of family role (.expander p)) ++
          (String.singleton p.bank.letter ++
            Form.ending family p.index (Form.of family role (.expander p))))) := by
  have hrole : role ≠ .interruptInput := by
    rintro rfl
    cases h
  rw [expression_expander hbank hrole]
  unfold Expander.pinText Form.opening Form.lead Form.of
  cases role with
  | interruptInput => exact absurd rfl hrole
  | output =>
    unfold Form.isRemote Form.head Form.bridge Form.middle Form.ending Expander.pinType
    simp only [if_true, String.append_assoc]
  | input =>
    unfold Form.isRemote Form.head Form.bridge Form.middle Form.ending Expander.pinType
    simp only [if_true, String.append_assoc]

/-- The name of a pin of the chip does not contain the character that ends it. -/
theorem stop_not_mem_raw {raw : String} {n : Nat} (h : Grammar.number? family raw.toList = some n)
    (f : Form) : Form.stop family f ∉ raw.toList := by
  have hstop : ∀ c, c = ',' ∨ c = ')' ∨ c = '.' → c ∉ raw.toList := by
    -- None of the three is a character of the grammar.
    rintro c (rfl | rfl | rfl)
    · exact Grammar.not_mem_of_number? (by decide) (by decide) (by decide) (by decide) h
    · exact Grammar.not_mem_of_number? (by decide) (by decide) (by decide) (by decide) h
    · exact Grammar.not_mem_of_number? (by decide) (by decide) (by decide) (by decide) h
  refine hstop _ ?_
  cases family <;> cases f <;> decide

theorem comma_not_mem_hexByte (i : Int) : ',' ∉ (Digits.hexByte i).toList := by
  intro hcomma
  exact Digits.forall_mem_hexByte (P := (· ≠ ',')) (by decide) (by decide) i _ hcomma rfl

theorem chip_inj {name name' rest rest' : String} {m n : Nat} {f : Form}
    (hm : Grammar.number? family name.toList = some m)
    (hn : Grammar.number? family name'.toList = some n)
    (h : name ++ (Form.middle family f ++ (Form.idle family activeLow f ++ rest)) =
      name' ++ (Form.middle family f ++ (Form.idle family activeLow' f ++ rest'))) :
    name = name' ∧ activeLow = activeLow' := by
  have hstop : ∀ s, (Form.middle family f ++ s).toList.head? = some (Form.stop family f) :=
    fun s => Text.head?_append (Form.head?_middle family f)
  obtain ⟨hname, hrest⟩ :=
    Text.gap_inj (stop_not_mem_raw hm f) (stop_not_mem_raw hn f) (hstop _) (hstop _) h
  rw [String.append_right_inj] at hrest
  exact ⟨hname, Form.idle_inj hrest⟩

theorem remote_inj {p q : ExpanderPin}
    (h : Digits.hexByte p.address ++ (", " ++ Expander.driver ++ "::Bank::" ++
        (String.singleton p.bank.letter ++ (", " ++ Digits.signed p.index ++ ")).unwrap()"))) =
      Digits.hexByte q.address ++ (", " ++ Expander.driver ++ "::Bank::" ++
        (String.singleton q.bank.letter ++ (", " ++ Digits.signed q.index ++ ")).unwrap()")))) :
    p = q := by
  have hstop : ∀ s, (", " ++ Expander.driver ++ "::Bank::" ++ s).toList.head? = some ',' :=
    fun s => Text.head?_append (by decide)
  have hletters : ∀ bank bank' : Bank, (String.singleton bank.letter).toList <+:
      (String.singleton bank'.letter).toList → bank = bank' := by
    intro bank bank'
    cases bank <;> cases bank' <;> decide
  -- The comma ends the address, the bank is the letter behind it, and the rest is the index.
  obtain ⟨haddress, hrest⟩ := Text.gap_inj (comma_not_mem_hexByte p.address)
    (comma_not_mem_hexByte q.address) (hstop _) (hstop _) h
  rw [String.append_right_inj] at hrest
  obtain ⟨hbank, hrest⟩ := Text.word_inj hletters hrest
  rw [String.append_left_inj, String.append_right_inj] at hrest
  obtain ⟨address, bank, index⟩ := p
  obtain ⟨address', bank', index'⟩ := q
  obtain rfl : address = address' := Digits.hexByte_injective haddress
  obtain rfl : index = index' := Digits.signed_injective hrest
  obtain rfl : bank = bank' := hbank
  rfl

end Emit

/-- The level that the expression for a pin of the chip sets when idle. -/
def Pin.idle? (activeLow : Bool) : Pin → Option Bool
  | .mcu _ _ => some activeLow
  | _ => none

namespace Emit

variable {family : Family} {activeLow activeLow' : Bool} {role role' : Role}

/-- **An expression tells its pin, and its level if the pin is one of the chip.** -/
theorem expression_inj {p q : Pin} (hp : Serves family role p) (hq : Serves family role' q)
    (h : expression family p role activeLow = expression family q role' activeLow') :
    p = q ∧ p.idle? activeLow = q.idle? activeLow' := by
  obtain ⟨hsound, hrole, hnamed⟩ := hp
  obtain ⟨hsound', hrole', hnamed'⟩ := hq
  cases p with
  | absent => cases hsound
  | mcu name i =>
    obtain ⟨m, rfl, hm⟩ := hnamed name i List.mem_cons_self
    have hexpression := @expression_chip family activeLow role name m hrole
    rw [hexpression] at h
    cases q with
    | absent => cases hsound'
    | mcu name' j =>
      obtain ⟨n, rfl, hn⟩ := hnamed' name' j List.mem_cons_self
      have hexpression' := @expression_chip family activeLow' role' name' n hrole'
      rw [hexpression'] at h
      obtain ⟨hform, htail⟩ := Form.eq_of_append h
      rw [← hform] at htail
      obtain ⟨rfl, rfl⟩ := chip_inj hm hn htail
      obtain rfl : m = n := Option.some.inj (hm.symm.trans hn)
      exact ⟨rfl, rfl⟩
    | expander e =>
      -- The form of one is of the chip, and that of the other of the expander.
      rw [expression_remote hsound' hrole'] at h
      have hremote := congrArg Form.isRemote (Form.eq_of_append h).1
      rw [Form.isRemote_of, Form.isRemote_of] at hremote
      cases hremote
  | expander d =>
    rw [expression_remote hsound hrole] at h
    cases q with
    | absent => cases hsound'
    | mcu name' j =>
      have hexpression' := @expression_chip family activeLow' role' name' j hrole'
      rw [hexpression'] at h
      have hremote := congrArg Form.isRemote (Form.eq_of_append h).1
      rw [Form.isRemote_of, Form.isRemote_of] at hremote
      cases hremote
    | expander e =>
      rw [expression_remote hsound' hrole'] at h
      obtain ⟨hform, htail⟩ := Form.eq_of_append h
      have hmiddle : ∀ e r, Form.middle family (Form.of family r (.expander e)) =
          ", " ++ Expander.driver ++ "::Bank::" := by
        intro e r
        cases r <;> rfl
      have hending : ∀ e r i, Form.ending family i (Form.of family r (.expander e)) =
          ", " ++ Digits.signed i ++ ")).unwrap()" := by
        intro e r i
        cases r <;> rfl
      rw [hmiddle, hmiddle, hending, hending] at htail
      exact ⟨congrArg Pin.expander (remote_inj htail), rfl⟩

end Emit

/-! ### Lines -/

namespace PinLine

variable {family : Family} {activeLow activeLow' : Bool}

/-- The pin that a line binds, which may be absent; an array binds none. -/
def pin? : PinLine → Option Pin
  | .bound _ pin _ _ => some pin
  | .empty _ => some .absent
  | .array _ _ => none

/-- The level that a line sets. -/
def idle? (activeLow : Bool) (x : PinLine) : Option Bool := x.pin?.bind (Pin.idle? activeLow)

/-- What a line computes: an expression for a pin, such an expression for a place of a grid,
nothing for such a place, or an array. -/
inductive Kind where
  | expression
  | place
  | nothing
  | array

/-- The kind of a line. -/
def kind : PinLine → Kind
  | .bound _ _ _ .plain => .expression
  | .bound _ _ _ .some => .place
  | .empty _ => .nothing
  | .array _ _ => .array

/-- The kind of what begins with a character. -/
def kindOf (c : Char) : Option Kind :=
  if c = ':' ∨ c = '\x7b' then some .expression
  else if c = 'S' then some .place
  else if c = 'N' then some .nothing
  else if c = '[' then some .array
  else none

/-- The kind of a text. -/
def kindOf? (s : String) : Option Kind := s.toList.head?.bind kindOf

theorem kindOf?_append {s t : String} {c : Char} (h : s.toList.head? = some c) :
    kindOf? (s ++ t) = kindOf c := by
  rw [kindOf?, Text.head?_append h]
  rfl

theorem kindOf?_opening (f : Emit.Form) (s : String) :
    kindOf? (Emit.Form.opening family f ++ s) = some .expression := by
  have hlead : ∃ c, (Emit.Form.lead family f.isRemote).toList.head? = some c ∧
      kindOf c = some .expression := by
    cases family <;> cases f <;> exact ⟨_, rfl, rfl⟩
  obtain ⟨c, hc, hkind⟩ := hlead
  rw [Emit.Form.opening, String.append_assoc, kindOf?_append hc, hkind]

theorem kindOf?_expression {pin : Pin} {role : Role} (h : Emit.Serves family role pin) :
    kindOf? (Emit.expression family pin role activeLow) = some .expression := by
  obtain ⟨hsound, hrole, -⟩ := h
  cases pin with
  | absent => cases hsound
  | mcu name number =>
    have hexpression := @Emit.expression_chip family activeLow role name number hrole
    rw [hexpression, kindOf?_opening]
  | expander p => rw [Emit.expression_remote hsound hrole, kindOf?_opening]

/-- The first character of what a line computes tells its kind. -/
theorem kindOf?_value {x : PinLine} (h : x.IsReady family) :
    kindOf? (x.value family activeLow) = some x.kind := by
  cases x with
  | bound name pin role wrap =>
    have hserves : Emit.Serves family role pin := h name pin role wrap rfl
    cases wrap with
    | plain => exact kindOf?_expression hserves
    | some =>
      rw [value, Emit.Wrap.apply, String.append_assoc, kindOf?_append (c := 'S') (by decide)]
      rfl
  | empty name =>
    have hhead : "None".toList.head? = some 'N' := by decide
    rw [value, kindOf?, hhead]
    rfl
  | array name items =>
    rw [value, String.append_assoc, kindOf?_append (c := '[') (by decide)]
    rfl

/-- What a line computes tells the pin that it binds, and the level. -/
theorem value_inj {x y : PinLine} (hx : x.IsReady family) (hy : y.IsReady family)
    (h : x.value family activeLow = y.value family activeLow') :
    x.pin? = y.pin? ∧ x.idle? activeLow = y.idle? activeLow' := by
  have hkind : x.kind = y.kind := by
    have hkinds := congrArg kindOf? h
    rwa [kindOf?_value hx, kindOf?_value hy, Option.some.injEq] at hkinds
  -- Only lines of one kind are left, and two expressions tell one pin.
  have hbound : ∀ {p q : Pin} {r r' : Role}, Emit.Serves family r p → Emit.Serves family r' q →
      Emit.expression family p r activeLow = Emit.expression family q r' activeLow' →
      some p = some q ∧ p.idle? activeLow = q.idle? activeLow' := by
    intro p q r r' hp hq hexpression
    obtain ⟨rfl, hidle⟩ := Emit.expression_inj hp hq hexpression
    exact ⟨rfl, hidle⟩
  cases x with
  | bound name p role wrap =>
    cases y with
    | bound name' q role' wrap' =>
      have hp := hx name p role wrap rfl
      have hq := hy name' q role' wrap' rfl
      cases wrap with
      | plain =>
        cases wrap' with
        | plain => exact hbound hp hq h
        | some => cases hkind
      | some =>
        cases wrap' with
        | plain => cases hkind
        | some =>
          simp only [value, Emit.Wrap.apply, String.append_left_inj, String.append_right_inj] at h
          exact hbound hp hq h
    | empty _ => cases wrap <;> cases hkind
    | array _ _ => cases wrap <;> cases hkind
  | empty _ =>
    cases y with
    | bound _ _ _ wrap' => cases wrap' <;> cases hkind
    | empty _ => exact ⟨rfl, rfl⟩
    | array _ _ => cases hkind
  | array _ _ =>
    cases y with
    | bound _ _ _ wrap' => cases wrap' <;> cases hkind
    | empty _ => cases hkind
    | array _ _ => exact ⟨rfl, rfl⟩

theorem blank_not_mem_binding {name : String} (h : Name.IsBinding name) : ' ' ∉ name.toList := by
  intro hblank
  exact absurd (h.chars _ hblank) (by decide)

/-- **A line tells the pin that it binds, and the level.** -/
theorem text_inj {x y : PinLine} (hx : x.IsNamed) (hy : y.IsNamed) (hready : x.IsReady family)
    (hready' : y.IsReady family) (h : x.text family activeLow = y.text family activeLow') :
    x.pin? = y.pin? ∧ x.idle? activeLow = y.idle? activeLow' := by
  simp only [text, String.append_assoc, String.append_right_inj] at h
  -- A blank ends the name, and behind the equals sign stands what the line computes.
  have hequals : ∀ s, (" = " ++ s).toList.head? = some ' ' := fun s =>
    Text.head?_append (by decide)
  obtain ⟨-, hvalue⟩ := Text.gap_inj (blank_not_mem_binding hx.1) (blank_not_mem_binding hy.1)
    (hequals _) (hequals _) h
  rw [String.append_right_inj, String.append_left_inj] at hvalue
  exact value_inj hready hready' hvalue

end PinLine

end BoardWiring
