import BoardWiring.Proofs.BracketedCode
import BoardWiring.Proofs.FragmentTruth

/-!
# What the statements for a bus tell

Whether a bus works is read off its statements, and the entries for its pins are read a second time
to see which pins it takes.  Both agree with what the statements say.

* `Code.arguments?` reads the arguments of a call off a text, and `Code.arguments?_separated` says
  that arguments which are set off by commas are read back;
* `Bus.pinPlaces?` reads the pins of a bus off the call that constructs it, and
  `Expander.strapsOf?` the straps of the expander off the call that constructs that;
* `Bus.build_told` says that the emptiness and the mark of the statements tell which bus works, and
  that those of a bus that works tell its pins, its names and its straps (`Bus.Tells`).
-/

namespace BoardWiring

namespace Code

/-! ### Calls -/

/-- What stands behind a word, where it occurs first. -/
def behind? (word : List Char) : List Char → Option (List Char)
  | [] => if word = [] then some [] else none
  | c :: cs =>
    if word.isPrefixOf (c :: cs) then some ((c :: cs).drop word.length) else behind? word cs

/-- The arguments of a call, read from behind its opening bracket.  They are set off by the commas
that stand in no other bracket, and the bracket that closes the call ends the last one. -/
def argumentsWithin (awaited : List Char) : List Char → List (List Char)
  | [] => [[]]
  | c :: cs =>
    if awaited = [] ∧ c = ',' then [] :: argumentsWithin [] cs
    else
      match await awaited c with
      | some next => (argumentsWithin next cs).modifyHead (c :: ·)
      | none => [[]]

/-- A text without the blanks and line feeds that it begins with. -/
def unindented (cs : List Char) : List Char := cs.dropWhile fun c => c == ' ' || c == '\n'

/-- The arguments of the first call of a function. -/
def arguments? (function : String) (text : String) : Option (List (List Char)) :=
  (behind? (function.toList ++ ['(']) text.toList).map fun rest =>
    (argumentsWithin [] rest).map unindented

example : arguments? "f" "let x = f(a, g(b, c),\n  [d]);" =
    some ["a".toList, "g(b, c)".toList, "[d]".toList] := by
  decide

/-- A text that is one argument at most. -/
def IsArgument (cs : List Char) : Prop := Nested cs ∧ ',' ∉ cs

instance (cs : List Char) : Decidable (IsArgument cs) := inferInstanceAs (Decidable (_ ∧ _))

variable {xs ys awaited next : List Char} {c : Char}

/-- A word is found behind a text in which its first character does not occur. -/
theorem behind?_append (hc : c ∉ xs) (word rest : List Char) :
    behind? (c :: word) (xs ++ (c :: word ++ rest)) = some rest := by
  induction xs with
  | nil =>
    have hword : (c :: word).isPrefixOf (c :: (word ++ rest)) = true :=
      List.isPrefixOf_iff_prefix.2 (List.prefix_append _ _)
    rw [List.nil_append, List.cons_append, behind?, if_pos hword, List.length_cons,
      List.drop_succ_cons, List.drop_left]
  | cons x xs ih =>
    rw [List.mem_cons, not_or] at hc
    have hword : ¬(c :: word).isPrefixOf (x :: (xs ++ (c :: word ++ rest))) = true := by
      rw [List.isPrefixOf_iff_prefix, List.cons_prefix_cons]
      exact fun hprefix => hc.1 hprefix.1
    rw [List.cons_append, behind?, if_neg hword, ih hc.2]

/-- Characters that set off no argument are put before what is read behind them. -/
theorem argumentsWithin_append (h : awaited? awaited xs = some next) (hcomma : ',' ∉ xs)
    (ys : List Char) :
    argumentsWithin awaited (xs ++ ys) = (argumentsWithin next ys).modifyHead (xs ++ ·) := by
  induction xs generalizing awaited with
  | nil =>
    obtain rfl : awaited = next := Option.some.inj h
    rw [List.nil_append]
    cases argumentsWithin awaited ys <;> rfl
  | cons x xs ih =>
    rw [List.mem_cons, not_or] at hcomma
    rw [awaited?_cons] at h
    obtain ⟨inner, hinner, hrest⟩ := Option.bind_eq_some_iff.1 h
    have hno : ¬(awaited = [] ∧ x = ',') := fun hboth => hcomma.1 hboth.2.symm
    rw [List.cons_append, argumentsWithin, if_neg hno, hinner]
    simp only [ih hrest hcomma.2, List.modifyHead_modifyHead]
    rfl

theorem argumentsWithin_comma (h : IsArgument xs) (ys : List Char) :
    argumentsWithin [] (xs ++ ',' :: ys) = xs :: argumentsWithin [] ys := by
  rw [argumentsWithin_append (h.1.awaited?_eq []) h.2, argumentsWithin, if_pos ⟨rfl, rfl⟩,
    List.modifyHead_cons, List.append_nil]

theorem argumentsWithin_closing (h : IsArgument xs) (ys : List Char) :
    argumentsWithin [] (xs ++ ')' :: ys) = [xs] := by
  have hclosing : argumentsWithin [] (')' :: ys) = [[]] := rfl
  rw [argumentsWithin_append (h.1.awaited?_eq []) h.2, hclosing, List.modifyHead_cons,
    List.append_nil]

/-- Arguments with a comma behind each of them. -/
def separated (args : List String) (rest : String) : String :=
  args.foldr (fun arg text => arg ++ ("," ++ text)) rest

theorem argumentsWithin_separated {args : List String} (h : ∀ arg ∈ args, IsArgument arg.toList)
    (rest : String) : argumentsWithin [] (separated args rest).toList =
      args.map String.toList ++ argumentsWithin [] rest.toList := by
  induction args with
  | nil => rfl
  | cons arg args ih =>
    rw [List.forall_mem_cons] at h
    have htext : (separated (arg :: args) rest).toList =
        arg.toList ++ ',' :: (separated args rest).toList := by
      rw [separated, List.foldr_cons, String.toList_append, String.toList_append]
      rfl
    rw [htext, argumentsWithin_comma h.1, ih h.2]
    rfl

/-- **The arguments of a call are read back**, if no character before it is the first one of its
function. -/
theorem arguments?_separated {function before : String} {args : List String}
    (hfunction : function.toList.head? = some c) (hc : c ∉ before.toList)
    (h : ∀ arg ∈ args, IsArgument arg.toList) (rest : String) :
    arguments? function (before ++ (function ++ ("(" ++ separated args rest))) =
      some ((args.map String.toList ++ argumentsWithin [] rest.toList).map unindented) := by
  obtain ⟨word, hword⟩ := List.head?_eq_some_iff.1 hfunction
  have htext : (before ++ (function ++ ("(" ++ separated args rest))).toList =
      before.toList ++ (c :: (word ++ ['(']) ++ (separated args rest).toList) := by
    simp only [String.toList_append, hword, List.cons_append, List.append_assoc]
    rfl
  rw [arguments?, htext, hword, List.cons_append, behind?_append hc,
    ← argumentsWithin_separated h rest]
  rfl

end Code

/-! ### Calls for a bus -/

namespace Bus

open Code

/-- A function that constructs a bus, and the places of the pins among its arguments. -/
structure Constructor where
  /-- Name of the function in its module. -/
  function : String
  /-- Place of the data pin. -/
  sda : Nat
  /-- Place of the clock pin. -/
  scl : Nat

/-- The function that constructs the bus of a family. -/
def constructor? : Family → Option Constructor
  | .stm32 | .rp2040 => some ⟨"I2c::new_blocking", 2, 1⟩
  | .nrf52 => some ⟨"Twim::new", 2, 3⟩
  | .esp32 => none

/-- What stands at the places of the data pin and of the clock pin in a text that constructs a
bus. -/
def pinPlaces? (family : Family) (text : String) : Option (List Char × List Char) := do
  let f ← constructor? family
  let args ← arguments? f.function text
  let sda ← args[f.sda]?
  let scl ← args[f.scl]?
  pure (sda, scl)

variable {family : Family} {s : BusSettings} {shared : Bool} {bus : Fragment}

theorem isArgument_pin {v : Value} {q : Pin} {t : String}
    (h : Pin.readOnChip family v = .ok q) (ht : IsArgument t.toList) :
    IsArgument (t ++ q.text).toList := by
  obtain ⟨raw, n, rfl, hn⟩ := Pin.named_of_readOnChip h
  have hcomma : ',' ∉ raw.toList :=
    Grammar.not_mem_of_number? (by decide) (by decide) (by decide) (by decide) hn
  have hnested : Nested raw.toList := by
    rw [← nested_brackets_iff, (fitsGap_raw hn).brackets_eq]
    exact .nil
  rw [IsArgument, String.toList_append, List.mem_append, not_or]
  exact ⟨ht.1.append hnested, ht.2, hcomma⟩

theorem unindented_pin (q : Pin) :
    unindented ("\n" ++ "    p." ++ q.text).toList = ("p." ++ q.text).toList ∧
      unindented (" p." ++ q.text).toList = ("p." ++ q.text).toList := by
  simp only [String.toList_append]
  exact ⟨rfl, rfl⟩

/-- A frequency does not hide the function behind it. -/
theorem not_mem_clock {c : Char} {head tail : String} (i : Int) (hhead : c ∉ head.toList)
    (htail : c ∉ tail.toList) (hsign : '-' ≠ c)
    (hdigit : ∀ d < 10, Digits.digit d ≠ c) :
    c ∉ (head ++ Digits.signed i ++ tail).toList := by
  have hclock : c ∉ (Digits.signed i).toList := fun hc =>
    Digits.forall_mem_signed (P := (· ≠ c)) hsign hdigit i c hc rfl
  rw [String.toList_append, String.toList_append, List.mem_append, List.mem_append, not_or, not_or]
  exact ⟨⟨hhead, hclock⟩, htail⟩

/-- A text calls a function with some arguments, and has the first character of the function nowhere
before. -/
def Calls (function : String) (args : List String) (text : String) : Prop :=
  ∃ before rest c, function.toList.head? = some c ∧ c ∉ before.toList ∧
    text = before ++ (function ++ ("(" ++ separated args rest))

theorem calls_stm32 (p : Plan) (more : List String) :
    Calls "I2c::new_blocking" ["\n" ++ "    p.I2C1", "\n" ++ "    p." ++ p.scl.text,
        "\n" ++ "    p." ++ p.sda.text]
      (String.intercalate "\n" (construct .stm32 p ++ more)) := by
  have hopening : "let mut i2c = ::embassy_stm32::i2c::I2c::new_blocking(" =
      "let mut i2c = ::embassy_stm32::i2c::" ++ ("I2c::new_blocking" ++ "(") := rfl
  have hfirst : "    p.I2C1," = "    p.I2C1" ++ "," := rfl
  have hlines : ∃ line rest, construct .stm32 p ++ more =
      "let mut i2c = ::embassy_stm32::i2c::I2c::new_blocking(" :: "    p.I2C1," ::
        ("    p." ++ p.scl.text ++ ",") :: ("    p." ++ p.sda.text ++ ",") :: line :: rest :=
    ⟨_, _, rfl⟩
  obtain ⟨line, rest, hlines⟩ := hlines
  refine ⟨"let mut i2c = ::embassy_stm32::i2c::", "\n" ++ String.intercalate "\n" (line :: rest),
    'I', by decide, by decide, ?_⟩
  rw [hlines]
  simp only [separated, List.foldr_cons, List.foldr_nil, String.intercalate_cons_cons, hopening,
    hfirst, String.append_assoc]

theorem calls_nrf52 (p : Plan) (more : List String) :
    Calls "Twim::new" ["p.TWISPI0", " Irqs", " p." ++ p.sda.text, " p." ++ p.scl.text]
      (String.intercalate "\n" (construct .nrf52 p ++ more)) := by
  have hopening : "    ::embassy_nrf::twim::Twim::new(p.TWISPI0, Irqs, p." =
      "    ::embassy_nrf::twim::" ++ ("Twim::new" ++ ("(" ++ ("p.TWISPI0" ++ ("," ++ (" Irqs" ++
        ("," ++ " p.")))))) := rfl
  have hcomma : ", p." = "," ++ " p." := rfl
  have hlast : ", config)" = "," ++ " config)" := rfl
  have hlines : ∃ line rest, construct .nrf52 p ++ more =
      "let mut i2c = \x7b" :: "    let mut config = ::embassy_nrf::twim::Config::default();" ::
        ("    config.frequency = ::embassy_nrf::twim::Frequency::K" ++ Digits.signed p.frequency ++
          ";") :: "    ::defmt::info!(\"I2C initialized\");" ::
        ("    ::embassy_nrf::twim::Twim::new(p.TWISPI0, Irqs, p." ++ p.sda.text ++ ", p." ++
          p.scl.text ++ ", config)") :: line :: rest :=
    ⟨_, _, rfl⟩
  obtain ⟨line, rest, hlines⟩ := hlines
  refine ⟨"let mut i2c = \x7b" ++ "\n" ++
      "    let mut config = ::embassy_nrf::twim::Config::default();" ++ "\n" ++
      "    config.frequency = ::embassy_nrf::twim::Frequency::K" ++ Digits.signed p.frequency ++
      (";" ++ "\n" ++ "    ::defmt::info!(\"I2C initialized\");" ++ "\n" ++
        "    ::embassy_nrf::twim::"),
    " config)" ++ "\n" ++ String.intercalate "\n" (line :: rest), 'T', by decide,
    not_mem_clock p.frequency (by decide +kernel) (by decide +kernel) (by decide) (by decide), ?_⟩
  rw [hlines]
  simp only [separated, List.foldr_cons, List.foldr_nil, String.intercalate_cons_cons, hopening,
    hcomma, hlast, String.append_assoc]

theorem calls_rp2040 (p : Plan) (more : List String) :
    Calls "I2c::new_blocking" ["p.I2C0", " p." ++ p.scl.text, " p." ++ p.sda.text]
      (String.intercalate "\n" (construct .rp2040 p ++ more)) := by
  have hopening : "    ::embassy_rp::i2c::I2c::new_blocking(p.I2C0, p." =
      "    ::embassy_rp::i2c::" ++ ("I2c::new_blocking" ++ ("(" ++ ("p.I2C0" ++
        ("," ++ " p.")))) := rfl
  have hcomma : ", p." = "," ++ " p." := rfl
  have hlast : ", config)" = "," ++ " config)" := rfl
  have hlines : ∃ line rest, construct .rp2040 p ++ more =
      "let mut i2c = \x7b" :: "    let mut config = ::embassy_rp::i2c::Config::default();" ::
        ("    config.frequency = " ++ Digits.signed p.frequency ++ " * 1000;") ::
        ("    ::embassy_rp::i2c::I2c::new_blocking(p.I2C0, p." ++ p.scl.text ++ ", p." ++
          p.sda.text ++ ", config)") :: line :: rest :=
    ⟨_, _, rfl⟩
  obtain ⟨line, rest, hlines⟩ := hlines
  refine ⟨"let mut i2c = \x7b" ++ "\n" ++
      "    let mut config = ::embassy_rp::i2c::Config::default();" ++ "\n" ++
      "    config.frequency = " ++ Digits.signed p.frequency ++
      (" * 1000;" ++ "\n" ++ "    ::embassy_rp::i2c::"),
    " config)" ++ "\n" ++ String.intercalate "\n" (line :: rest), 'I', by decide,
    not_mem_clock p.frequency (by decide +kernel) (by decide +kernel) (by decide) (by decide), ?_⟩
  rw [hlines]
  simp only [separated, List.foldr_cons, List.foldr_nil, String.intercalate_cons_cons, hopening,
    hcomma, hlast, String.append_assoc]

theorem pinPlaces?_of_calls {f : Constructor} {text sda scl : String} {args : List String}
    (hfamily : constructor? family = some f) (hcalls : Calls f.function args text)
    (hargs : ∀ arg ∈ args, IsArgument arg.toList)
    (hsda : args[f.sda]? = some sda) (hscl : args[f.scl]? = some scl) :
    pinPlaces? family text = some (unindented sda.toList, unindented scl.toList) := by
  obtain ⟨before, rest, c, hfunction, hc, rfl⟩ := hcalls
  have hplace : ∀ {k : Nat} {arg : String} (others : List (List Char)), args[k]? = some arg →
      ((args.map String.toList ++ others).map unindented)[k]? = some (unindented arg.toList) := by
    intro k arg others harg
    have hlt : k < args.length := (List.getElem?_eq_some_iff.1 harg).1
    rw [List.getElem?_map, List.getElem?_append_left (by simpa using hlt), List.getElem?_map, harg]
    rfl
  rw [pinPlaces?, hfamily]
  simp only [Option.bind_eq_bind, Option.bind_some, arguments?_separated hfunction hc hargs,
    hplace _ hsda, hplace _ hscl]
  rfl

/-- **The pins of a bus stand at their places in the call that constructs it.** -/
theorem pinPlaces?_construct {p : Plan} (h : plan family s = .ok p)
    (hfam : isSupported family = true) (more : List String) :
    pinPlaces? family (String.intercalate "\n" (construct family p ++ more)) =
      some (("p." ++ p.sda.text).toList, ("p." ++ p.scl.text).toList) := by
  obtain ⟨hsda, hscl, -⟩ := plan_eq_ok_iff.1 h
  cases family with
  | esp32 => cases hfam
  | stm32 =>
    have hfirst : IsArgument ("\n" ++ "    p.I2C1").toList := by decide
    have hsda' := isArgument_pin (t := "\n" ++ "    p.") hsda (by decide)
    have hscl' := isArgument_pin (t := "\n" ++ "    p.") hscl (by decide)
    rw [pinPlaces?_of_calls rfl (calls_stm32 p more) (List.forall_mem_cons.2 ⟨hfirst,
      List.forall_mem_cons.2 ⟨hscl', List.forall_mem_singleton.2 hsda'⟩⟩) rfl rfl,
      (unindented_pin _).1, (unindented_pin _).1]
  | nrf52 =>
    have hfirst : IsArgument "p.TWISPI0".toList := by decide
    have hsecond : IsArgument " Irqs".toList := by decide
    have hsda' := isArgument_pin (t := " p.") hsda (by decide)
    have hscl' := isArgument_pin (t := " p.") hscl (by decide)
    rw [pinPlaces?_of_calls rfl (calls_nrf52 p more) (List.forall_mem_cons.2 ⟨hfirst,
      List.forall_mem_cons.2 ⟨hsecond, List.forall_mem_cons.2 ⟨hsda',
        List.forall_mem_singleton.2 hscl'⟩⟩⟩) rfl rfl, (unindented_pin _).2, (unindented_pin _).2]
  | rp2040 =>
    have hfirst : IsArgument "p.I2C0".toList := by decide
    have hsda' := isArgument_pin (t := " p.") hsda (by decide)
    have hscl' := isArgument_pin (t := " p.") hscl (by decide)
    rw [pinPlaces?_of_calls rfl (calls_rp2040 p more) (List.forall_mem_cons.2 ⟨hfirst,
      List.forall_mem_cons.2 ⟨hscl', List.forall_mem_singleton.2 hsda'⟩⟩) rfl rfl,
      (unindented_pin _).2, (unindented_pin _).2]

end Bus

/-! ### Straps -/

namespace Expander

open Code

/-- The level that a text stands for. -/
def level? (cs : List Char) : Option Bool :=
  [true, false].find? fun b => (level b).toList = cs

/-- The straps A0, A1 and A2 in a line that constructs an expander. -/
def strapsOf? (line : String) : Option (Bool × Bool × Bool) :=
  match arguments? "Mcp23x17::new_mcp23017" line with
  | some [_, a0, a1, a2] => do
    let a0 ← level? a0
    let a1 ← level? a1
    let a2 ← level? a2
    pure (a0, a1, a2)
  | _ => none

/-- The line that constructs an expander with some straps. -/
def newExpander (a0 a1 a2 : Bool) : String :=
  "let mut mcp23x17 = ::port_expander::Mcp23x17::new_mcp23017(" ++ sharedBusDevice ++ ", " ++
    level a0 ++ ", " ++ level a1 ++ ", " ++ level a2 ++ ");"

/-- **The straps of an expander are read off the line that constructs it.** -/
theorem strapsOf?_newExpander (a0 a1 a2 : Bool) :
    strapsOf? (newExpander a0 a1 a2) = some (a0, a1, a2) := by
  have hopening : "let mut mcp23x17 = ::port_expander::Mcp23x17::new_mcp23017(" =
      "let mut mcp23x17 = ::port_expander::" ++ ("Mcp23x17::new_mcp23017" ++ "(") := rfl
  have hcomma : ", " = "," ++ " " := rfl
  have hlevel : ∀ a, IsArgument (" " ++ level a).toList ∧
      unindented (" " ++ level a).toList = (level a).toList ∧ level? (level a).toList = some a := by
    decide
  have htext : newExpander a0 a1 a2 = "let mut mcp23x17 = ::port_expander::" ++
      ("Mcp23x17::new_mcp23017" ++ ("(" ++ separated
        [sharedBusDevice, " " ++ level a0, " " ++ level a1] (" " ++ level a2 ++ ");"))) := by
    unfold newExpander
    simp only [separated, List.foldr_cons, List.foldr_nil, hopening, hcomma, String.append_assoc]
  have hlast : argumentsWithin [] (" " ++ level a2 ++ ");").toList =
      [(" " ++ level a2).toList] := by
    rw [String.toList_append]
    exact argumentsWithin_closing (hlevel a2).1 [';']
  have hdevice : IsArgument sharedBusDevice.toList := by decide
  have hargs := @arguments?_separated 'M' "Mcp23x17::new_mcp23017"
    "let mut mcp23x17 = ::port_expander::" [sharedBusDevice, " " ++ level a0, " " ++ level a1]
    (by decide) (by decide) (List.forall_mem_cons.2 ⟨hdevice, List.forall_mem_cons.2
      ⟨(hlevel a0).1, List.forall_mem_singleton.2 (hlevel a1).1⟩⟩) (" " ++ level a2 ++ ");")
  rw [← htext, hlast] at hargs
  rw [strapsOf?, hargs]
  simp only [List.map_cons, List.map_nil, List.cons_append, List.nil_append, (hlevel _).2.1,
    (hlevel _).2.2, Option.bind_eq_bind, Option.bind_some]
  rfl

theorem straps_eq (k : Fin 8) (a0 a1 a2 : Bool) (h : straps (0x20 + (k : Nat)) = (a0, a1, a2)) :
    (a0.toNat + 2 * a1.toNat + 4 * a2.toNat : Int) = (k : Nat) := by
  revert k a0 a1 a2
  decide

end Expander

namespace Bus

open Code

variable {family : Family} {s : BusSettings} {shared : Bool} {bus : Fragment}

/-- The statements of a bus tell its pins, its names and the straps of its expander. -/
structure Tells (family : Family) (s : BusSettings) (shared : Bool) (bus : Fragment) : Prop where
  /-- The bus takes the two pins of the chip whose names stand at the places of the data pin and of
  the clock pin in the call that constructs it. -/
  pins : ∃ sda m scl n, claimedPins family s bus = .ok [.mcu sda m, .mcu scl n] ∧
    pinPlaces? family (bus.render "") = some (("p." ++ sda).toList, ("p." ++ scl).toList)
  bindings : bus.bindings = "i2c" :: ((if shared || s.expander then ["i2c_bus"] else []) ++
    if s.expander then ["mcp23x17", "ge"] else [])
  /-- The lines introduce the names in their order. -/
  declared : bus.lines.filterMap declared? = bus.bindings
  straps : s.expander = true → ∃ line ∈ bus.lines, declared? line = some "mcp23x17" ∧
    ∃ a0 a1 a2, Expander.strapsOf? line = some (a0, a1, a2) ∧
      (a0.toNat + 2 * a1.toNat + 4 * a2.toNat : Int) = s.address - 0x20

theorem expanderStatements_eq {address : Int} (h : ExpanderPin.isAddress address = true)
    {a0 a1 a2 : Bool} (hstraps : Expander.straps address = (a0, a1, a2)) :
    expanderStatements address = Fragment.ofLines [Expander.newExpander a0 a1 a2,
      "let ge = mcp23x17.split();", "::defmt::info!(\"MCP23017 initialized\");"]
      ["mcp23x17", "ge"] := by
  simp only [expanderStatements, Expander.bringUp, h, if_true, hstraps]
  rfl

theorem declared?_newExpander (a0 a1 a2 : Bool) :
    declared? (Expander.newExpander a0 a1 a2) = some "mcp23x17" := by
  have hname : Name.IsWord "mcp23x17" := ⟨by decide, List.all_eq_true.1 (by decide)⟩
  have hopening : "let mut mcp23x17 = ::port_expander::Mcp23x17::new_mcp23017(" =
      "let mut " ++ "mcp23x17" ++ " = " ++ "::port_expander::Mcp23x17::new_mcp23017(" := rfl
  unfold Expander.newExpander
  rw [hopening]
  simp only [String.append_assoc]
  rw [← String.append_assoc, ← String.append_assoc]
  exact declared?_declaration (by decide) hname _

theorem tells_statements {p : Plan} (h : Built family s shared (statements family p s shared))
    (on : s.enabled = true) (hfam : isSupported family = true) (settings : plan family s = .ok p)
    (address : s.expander = true → ExpanderPin.isAddress s.address = true) :
    Tells family s shared (statements family p s shared) := by
  obtain ⟨hsda, hscl, -⟩ := plan_eq_ok_iff.1 settings
  constructor
  case pins =>
    obtain ⟨sda, m, hsda', -⟩ := Pin.named_of_readOnChip hsda
    obtain ⟨scl, n, hscl', -⟩ := Pin.named_of_readOnChip hscl
    refine ⟨sda, m, scl, n, ?_, ?_⟩
    · rw [h.claimedPins_eq, pins, on, hfam, Pin.ofEntry_of_readOnChip hsda,
        Pin.ofEntry_of_readOnChip hscl, hsda', hscl']
      rfl
    · rw [Fragment.render_plain, lines_statements, pinPlaces?_construct settings hfam, hsda', hscl']
      rfl
  case bindings =>
    cases hx : s.expander with
    | false =>
      cases shared <;>
        simp [statements, hx, Fragment.ofLines, Fragment.empty, sharing, Expander.sharedBus]
    | true =>
      rcases hstraps : Expander.straps s.address with ⟨a0, a1, a2⟩
      simp [statements, hx, expanderStatements_eq (address hx) hstraps, Fragment.ofLines, sharing,
        Expander.sharedBus]
  case declared => exact h.isTruthful.bindings
  case straps =>
    intro hx
    obtain ⟨k, hk⟩ := Pin.exists_offset (address hx)
    rcases hstraps : Expander.straps s.address with ⟨a0, a1, a2⟩
    have hlines : Expander.newExpander a0 a1 a2 ∈ (statements family p s shared).lines := by
      rw [lines_statements, hx, expanderStatements_eq (address hx) hstraps]
      simp [Fragment.ofLines]
    refine ⟨_, hlines, declared?_newExpander a0 a1 a2, a0, a1, a2,
      Expander.strapsOf?_newExpander a0 a1 a2, ?_⟩
    rw [Expander.straps_eq k a0 a1 a2 (hk ▸ hstraps), hk]
    omega

/-- **What is inferred from the statements for a bus is right.**  They are empty exactly if the bus
is switched off, and marked exactly if the family has none; those of any other bus tell its pins,
its names and the straps of its expander. -/
theorem build_told (h : build family s shared = .ok bus) :
    (bus.isEmpty = true ↔ s.enabled = false) ∧
      (bus.unsupported = true ↔ s.enabled = true ∧ family = .esp32) ∧
      (bus.isEmpty = false → bus.unsupported = false → Tells family s shared bus) := by
  have hbuilt := build_eq_ok_iff.1 h
  have hunsupported : family = .esp32 ↔ isSupported family = false := by
    cases family <;> decide
  rw [hunsupported]
  have husable := hbuilt.isUsable_eq
  cases hbuilt with
  | disabled off =>
    refine ⟨iff_of_true rfl off, iff_of_false (by decide) ?_, fun hempty => by cases hempty⟩
    rw [off]
    exact fun hboth => by cases hboth.1
  | unsupported on hfam =>
    refine ⟨iff_of_false Bool.false_ne_true (by simp [on]), iff_of_true rfl ⟨on, hfam⟩,
      fun _ hmark => ?_⟩
    cases hmark
  | @constructed p on hfam settings short address =>
    -- A bus that works is neither empty nor marked.
    rw [on, hfam, isUsable] at husable
    simp only [Bool.and_self, Bool.not_eq_true', Bool.or_eq_false_iff] at husable
    refine ⟨iff_of_false (by simp [husable.1]) (by simp [on]),
      iff_of_false (by simp [husable.2]) (by simp [hfam]), fun _ _ => ?_⟩
    exact tells_statements (.constructed on hfam settings short address) on hfam settings address

/-- A bus with an expander whose address sets the first and the third strap. -/
def harbour : BusSettings := ⟨true, .text "PIN_4", .text "PIN_5", .int 400, true, 0x25⟩

/-- Its statements tell its pins and its straps. -/
theorem build_told_harbour :
    ∃ bus, build .rp2040 harbour false = .ok bus ∧ Tells .rp2040 harbour false bus ∧
      bus.bindings = ["i2c", "i2c_bus", "mcp23x17", "ge"] := by
  have hplan : plan .rp2040 harbour = .ok ⟨.mcu "PIN_4" 4, .mcu "PIN_5" 5, 400⟩ :=
    plan_eq_ok_iff.2 ⟨rfl, rfl, rfl⟩
  have hshort : Digits.isWritable 400 = true := Digits.isWritable_of_lt (by decide)
  have hbuilt : Built .rp2040 harbour false _ :=
    .constructed rfl rfl hplan hshort fun _ => by decide
  have hbus := build_eq_ok_iff.2 hbuilt
  obtain ⟨hempty, hmark, htells⟩ := build_told hbus
  have htold := htells (by simpa [harbour] using hempty) (by simpa using hmark)
  exact ⟨_, hbus, htold, htold.bindings⟩

end Bus

end BoardWiring
