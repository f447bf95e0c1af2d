import BoardWiring.Failure
import BoardWiring.Pin.Grammar

/-!
# Reading pins

An entry of a board description is read as a pin of the board's family.

* `Pin.read` accepts pins of both kinds, and the mark of an absent pin where that is allowed;
* `Pin.readOnChip` accepts only pins of the microcontroller;
* `Pin.readExpander` reads an expander pin of any index, and `ExpanderPin.number` is the number
  of the pin among those of both banks.
-/

namespace BoardWiring

namespace ExpanderPin

/-- The least address of an expander. -/
def minAddress : Int := 0x20

/-- The greatest address of an expander. -/
def maxAddress : Int := 0x27

/-- An address that an expander can have. -/
def isAddress (address : Int) : Bool :=
  decide (minAddress ≤ address) && decide (address ≤ maxAddress)

/-- The number of a pin among those of both banks. -/
def number (p : ExpanderPin) : Except Failure Int :=
  if p.inBank then .ok (p.bank.offset + p.index)
  else .error ((Pin.expander p).blamed (.expanderIndex p))

end ExpanderPin

namespace Pin

/-- The expander pin with a spelling; its index is not compared with the size of a bank. -/
def readExpander (raw : String) : Except Failure ExpanderPin :=
  match Grammar.expander? raw.toList with
  | none => .error (.config (.expanderForm raw))
  | some parts =>
    if ExpanderPin.isAddress parts.address then
      match Bank.ofLetter? parts.letter with
      | none => .error (.config (.expanderBank raw parts.letter))
      | some bank =>
        if Digits.limit < parts.index.length then
          .error (.longNumber parts.index.length)
        else .ok ⟨parts.address, bank, (Digits.value 10 parts.index : Nat)⟩
    else .error (.config (.expanderAddress raw))

/-- The pin of a family with a spelling.  The mark of an absent pin is read only if `absent` is
set. -/
def readText (family : Family) (absent : Bool) (raw : String) : Except Failure Pin :=
  if raw = absentMark then
    if absent then .ok .absent else .error (.config .absentOutsideGrid)
  else if Grammar.isExpander raw.toList then do
    let p ← readExpander raw
    match p.number with
    | .ok _ => .ok (.expander p)
    | .error f => .error f
  else
    match Grammar.number? family raw.toList with
    | some n => .ok (.mcu raw n)
    | none => .error (.config (.unknownPin raw (some family)))

/-- The pin that an entry of a description stands for.  A text that is no string is the spelling of
no pin, and an entry other than a text is no pin. -/
def read (family : Family) (absent : Bool) : Value → Except Failure Pin
  | .text raw => readText family absent raw
  | .torn t =>
    if Grammar.isExpander t.text.head.toList then .error (.config (.expanderForm t.text))
    else .error (.config (.unknownPin t.text (some family)))
  | v => do
    let raw ← v.written
    .error (.config (.unknownPin raw (some family)))

/-- The pin of the microcontroller that an entry of a description stands for. -/
def readOnChip (family : Family) (v : Value) : Except Failure Pin := do
  match ← read family false v with
  | .mcu name number => .ok (.mcu name number)
  | _ => .error (.config (.notOnChip v.shown))

end Pin

end BoardWiring
