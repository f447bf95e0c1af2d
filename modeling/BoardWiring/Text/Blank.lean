import BoardWiring.Text.Loose

/-!
# White space

The characters that count as blank at the ends of a text: the Unicode white space of all scripts,
together with the four ASCII separators 0x1C to 0x1F.

* `Text.isBlank` is the class, `Text.trim` drops its characters from both ends of a text;
* `Text.isBlank_of_isWhitespace` says that every white-space character of ASCII is in it.
-/

namespace BoardWiring

namespace Text

/-- The blank characters, as ranges of code points. -/
def blankRanges : List (Nat × Nat) :=
  [(0x9, 0xd), (0x1c, 0x20), (0x85, 0x85), (0xa0, 0xa0), (0x1680, 0x1680),
   (0x2000, 0x200a), (0x2028, 0x2029), (0x202f, 0x202f), (0x205f, 0x205f), (0x3000, 0x3000)]

/-- A code point lies in one of the ranges. -/
def inRanges (ranges : List (Nat × Nat)) (n : Nat) : Bool :=
  ranges.any fun r => decide (r.1 ≤ n) && decide (n ≤ r.2)

/-- A blank character. -/
def isBlank (c : Char) : Bool := inRanges blankRanges c.toNat

/-- A text without the blank characters at its two ends. -/
def trim (cs : List Char) : List Char :=
  ((cs.dropWhile isBlank).reverse.dropWhile isBlank).reverse

theorem isBlank_of_isWhitespace {c : Char} (h : c.isWhitespace = true) : isBlank c = true := by
  simp only [Char.isWhitespace, Bool.or_eq_true, decide_eq_true_eq] at h
  rcases h with ((rfl | rfl) | rfl) | rfl <;> decide

end Text

/-- A text of blank characters only. -/
def LooseText.isBlank (t : LooseText) : Bool := t.points.all fun p => p.char?.any Text.isBlank

end BoardWiring
