/-!
# Cutting texts

A text is cut at the characters of a class, which are dropped.

* `Text.pieces` are what is left; `Text.pieces_ne_nil` says that there is always a piece.
-/

namespace BoardWiring

namespace Text

variable {α : Type}

/-- A text cut at every character of a class; pieces may be empty. -/
def pieces (cut : α → Bool) : List α → List (List α)
  | [] => [[]]
  | c :: cs =>
    if cut c then [] :: pieces cut cs
    else (c :: (pieces cut cs).headD []) :: (pieces cut cs).tail

theorem pieces_ne_nil (cut : α → Bool) (cs : List α) : pieces cut cs ≠ [] := by
  cases cs with
  | nil => simp [pieces]
  | cons c cs =>
    simp only [pieces]
    split <;> simp

end Text

end BoardWiring
