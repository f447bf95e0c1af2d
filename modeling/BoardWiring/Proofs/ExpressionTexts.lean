import BoardWiring.Emit.Expression
import Mathlib.Tactic.Common

/-!
# The texts of expressions

The expressions for pins of the chip are put together from fixed texts and the name of the pin.  A
property that is handed on from two texts to both in a row holds of them if it holds of these.

* `Emit.fixedTexts` are the texts between the gaps;
* `Emit.HandedOn.output` and `Emit.HandedOn.input` say that such a property holds of the
  expressions;
* `Expander.pinText_eq` cuts the expression for a pin of the expander at its device, and
  `Emit.HandedOn.expanderOpening` and `Emit.HandedOn.expanderClosing` are about the rest of it.
-/

namespace BoardWiring

namespace Text

theorem head?_append {s t : String} {c : Char} (h : s.toList.head? = some c) :
    (s ++ t).toList.head? = some c := by
  rw [String.toList_append, List.head?_append, h]
  rfl

end Text

namespace Emit

/-- The texts between the gaps of the expressions for plain outputs and inputs, and the words that
may stand in these gaps. -/
def fixedTexts : List String :=
  ["::embassy_stm32", "::embassy_nrf", "::embassy_rp", "::esp_idf_svc::hal", "High", "Low", "Up",
    "Down", "set_high", "set_low", "::gpio::Output::new(p.", ", ", "::gpio::Level::",
    "::gpio::Speed::VeryHigh).degrade()", "::gpio::Output::new(", "::gpio::AnyPin::from(p.", "), ",
    "::gpio::OutputDrive::Standard)", ")", "\x7b let mut pin = ",
    "::gpio::PinDriver::output(p.pins.", ".downgrade_output()).unwrap(); pin.",
    "().unwrap(); pin \x7d", "::gpio::Input::new(p.", "::gpio::Pull::", ").degrade()",
    "::gpio::Input::new(", "::gpio::PinDriver::input(p.pins.",
    ".downgrade_input()).unwrap(); pin.set_pull(", ").unwrap(); pin \x7d",
    "::rmk::gpio::mcp230xx", "::", "Output", "Input", "::new(", "::Pin::new(0x", "::Bank::", "A",
    "B", ")).unwrap()"]

/-- A property of the fixed texts that is handed on from two texts to both in a row. -/
structure HandedOn (Q : String → Prop) : Prop where
  append : ∀ {s t : String}, Q s → Q t → Q (s ++ t)
  fixed : ∀ s ∈ fixedTexts, Q s

namespace HandedOn

variable {Q : String → Prop} {family : Family} {activeLow : Bool} {name : String}

theorem hal (h : HandedOn Q) (family : Family) : Q (Emit.hal family) := by
  cases family with
  | stm32 => exact h.fixed "::embassy_stm32" (by simp [fixedTexts])
  | nrf52 => exact h.fixed "::embassy_nrf" (by simp [fixedTexts])
  | rp2040 => exact h.fixed "::embassy_rp" (by simp [fixedTexts])
  | esp32 => exact h.fixed "::esp_idf_svc::hal" (by simp [fixedTexts])

theorem level (h : HandedOn Q) (activeLow : Bool) : Q (Emit.level activeLow) := by
  cases activeLow with
  | true => exact h.fixed "High" (by simp [fixedTexts])
  | false => exact h.fixed "Low" (by simp [fixedTexts])

theorem pull (h : HandedOn Q) (activeLow : Bool) : Q (Emit.pull activeLow) := by
  cases activeLow with
  | true => exact h.fixed "Up" (by simp [fixedTexts])
  | false => exact h.fixed "Down" (by simp [fixedTexts])

theorem setter (h : HandedOn Q) (activeLow : Bool) : Q (Emit.setter activeLow) := by
  cases activeLow with
  | true => exact h.fixed "set_high" (by simp [fixedTexts])
  | false => exact h.fixed "set_low" (by simp [fixedTexts])

/-- The property holds of the expression for an output if it holds of the name. -/
theorem output (h : HandedOn Q) (hname : Q name) : Q (Emit.output family name activeLow) := by
  have hhal := h.hal family
  have hlevel := h.level activeLow
  have hsetter := h.setter activeLow
  unfold Emit.output
  cases family with
  | stm32 =>
    simp only [String.append_assoc]
    exact h.append hhal <| h.append (h.fixed _ (by simp [fixedTexts])) <| h.append hname <|
      h.append (h.fixed _ (by simp [fixedTexts])) <| h.append hhal <|
      h.append (h.fixed _ (by simp [fixedTexts])) <| h.append hlevel <|
      h.append (h.fixed _ (by simp [fixedTexts])) <| h.append hhal <|
      h.fixed _ (by simp [fixedTexts])
  | nrf52 =>
    simp only [String.append_assoc]
    exact h.append hhal <| h.append (h.fixed _ (by simp [fixedTexts])) <| h.append hhal <|
      h.append (h.fixed _ (by simp [fixedTexts])) <| h.append hname <|
      h.append (h.fixed _ (by simp [fixedTexts])) <| h.append hhal <|
      h.append (h.fixed _ (by simp [fixedTexts])) <| h.append hlevel <|
      h.append (h.fixed _ (by simp [fixedTexts])) <| h.append hhal <|
      h.fixed _ (by simp [fixedTexts])
  | rp2040 =>
    simp only [String.append_assoc]
    exact h.append hhal <| h.append (h.fixed _ (by simp [fixedTexts])) <| h.append hhal <|
      h.append (h.fixed _ (by simp [fixedTexts])) <| h.append hname <|
      h.append (h.fixed _ (by simp [fixedTexts])) <| h.append hhal <|
      h.append (h.fixed _ (by simp [fixedTexts])) <| h.append hlevel <|
      h.fixed _ (by simp [fixedTexts])
  | esp32 =>
    simp only [String.append_assoc]
    exact h.append (h.fixed _ (by simp [fixedTexts])) <| h.append hhal <|
      h.append (h.fixed _ (by simp [fixedTexts])) <| h.append hname <|
      h.append (h.fixed _ (by simp [fixedTexts])) <| h.append hsetter <|
      h.fixed _ (by simp [fixedTexts])

theorem input (h : HandedOn Q) (hname : Q name) : Q (Emit.input family name activeLow) := by
  have hhal := h.hal family
  have hpull := h.pull activeLow
  -- Two families make their inputs from pins of any kind.
  have herased : Q (Emit.hal family ++ "::gpio::Input::new(" ++ Emit.hal family ++
      "::gpio::AnyPin::from(p." ++ name ++ "), " ++ Emit.hal family ++ "::gpio::Pull::" ++
      Emit.pull activeLow ++ ")") := by
    simp only [String.append_assoc]
    exact h.append hhal <| h.append (h.fixed _ (by simp [fixedTexts])) <| h.append hhal <|
      h.append (h.fixed _ (by simp [fixedTexts])) <| h.append hname <|
      h.append (h.fixed _ (by simp [fixedTexts])) <| h.append hhal <|
      h.append (h.fixed _ (by simp [fixedTexts])) <| h.append hpull <|
      h.fixed _ (by simp [fixedTexts])
  unfold Emit.input
  cases family with
  | stm32 =>
    simp only [String.append_assoc]
    exact h.append hhal <| h.append (h.fixed _ (by simp [fixedTexts])) <| h.append hname <|
      h.append (h.fixed _ (by simp [fixedTexts])) <| h.append hhal <|
      h.append (h.fixed _ (by simp [fixedTexts])) <| h.append hpull <|
      h.fixed _ (by simp [fixedTexts])
  | nrf52 => exact herased
  | rp2040 => exact herased
  | esp32 =>
    simp only [String.append_assoc]
    exact h.append (h.fixed _ (by simp [fixedTexts])) <| h.append hhal <|
      h.append (h.fixed _ (by simp [fixedTexts])) <| h.append hname <|
      h.append (h.fixed _ (by simp [fixedTexts])) <| h.append hhal <|
      h.append (h.fixed _ (by simp [fixedTexts])) <| h.append hpull <|
      h.fixed _ (by simp [fixedTexts])

end HandedOn

end Emit

/-! ### Pins of the expander -/

namespace Expander

/-- What stands before the device in the expression for a pin of the expander. -/
def opening (role : Role) : String := driver ++ "::" ++ pinType role ++ "::new("

/-- What stands behind the device in the expression for a pin of the expander. -/
def closing (p : ExpanderPin) : String :=
  ", " ++ driver ++ "::Pin::new(0x" ++ Digits.hexByte p.address ++ ", " ++ driver ++ "::Bank::" ++
    String.singleton p.bank.letter ++ ", " ++ Digits.signed p.index ++ ")).unwrap()"

theorem pinText_eq (p : ExpanderPin) (role : Role) :
    pinText p role = opening role ++ (sharedBusDevice ++ closing p) := by
  unfold pinText opening closing
  simp only [String.append_assoc]

end Expander

namespace Emit.HandedOn

open Expander

variable {Q : String → Prop}

theorem expanderOpening (h : HandedOn Q) (role : Role) : Q (opening role) := by
  have hdriver : Q driver := h.fixed "::rmk::gpio::mcp230xx" (by simp [fixedTexts])
  have htype : Q (pinType role) := by
    cases role with
    | output => exact h.fixed "Output" (by simp [fixedTexts])
    | input => exact h.fixed "Input" (by simp [fixedTexts])
    | interruptInput => exact h.fixed "Input" (by simp [fixedTexts])
  unfold opening
  simp only [String.append_assoc]
  exact h.append hdriver <| h.append (h.fixed _ (by simp [fixedTexts])) <| h.append htype <|
    h.fixed _ (by simp [fixedTexts])

/-- The property holds of what stands behind the device if it holds of the two numbers. -/
theorem expanderClosing (h : HandedOn Q) {p : ExpanderPin} (haddress : Q (Digits.hexByte p.address))
    (hindex : Q (Digits.signed p.index)) : Q (closing p) := by
  have hdriver : Q driver := h.fixed "::rmk::gpio::mcp230xx" (by simp [fixedTexts])
  have hbank : Q (String.singleton p.bank.letter) := by
    cases p.bank with
    | a => exact h.fixed "A" (by simp [fixedTexts])
    | b => exact h.fixed "B" (by simp [fixedTexts])
  unfold closing
  simp only [String.append_assoc]
  exact h.append (h.fixed _ (by simp [fixedTexts])) <| h.append hdriver <|
    h.append (h.fixed _ (by simp [fixedTexts])) <| h.append haddress <|
    h.append (h.fixed _ (by simp [fixedTexts])) <| h.append hdriver <|
    h.append (h.fixed _ (by simp [fixedTexts])) <| h.append hbank <|
    h.append (h.fixed _ (by simp [fixedTexts])) <| h.append hindex <|
    h.fixed _ (by simp [fixedTexts])

end Emit.HandedOn

end BoardWiring
