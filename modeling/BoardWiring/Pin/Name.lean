import BoardWiring.Pin.Basic
import BoardWiring.Text.Pieces

/-!
# Names of bindings

The name under which a pin is bound is made of the letters and digits of its spelling.

* `Name.ofText` is the name for a text: its words, in lower case, joined by low lines.
-/

namespace BoardWiring

namespace Name

/-- A letter or digit of ASCII. -/
def isWordChar (c : Char) : Bool := c.isAlphanum

/-- The longest runs of letters and digits of a text. -/
def words (cs : List Char) : List (List Char) :=
  (Text.pieces (fun c => !isWordChar c) cs).filter fun w => !w.isEmpty

/-- The words of a text in lower case, joined by low lines. -/
def joined (cs : List Char) : List Char :=
  (['_'].intercalate (words cs)).map Char.toLower

/-- The name for a text; a text without words is given the name `none`. -/
def ofText (s : String) : String :=
  let cs := joined s.toList
  if cs.isEmpty then "none" else String.ofList cs

end Name

namespace Pin

/-- The name under which a pin is bound. -/
def name (p : Pin) : String := Name.ofText p.text

end Pin

end BoardWiring
