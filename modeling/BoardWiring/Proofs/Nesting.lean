import Mathlib.Tactic.Common

/-!
# Nested brackets

The brackets of a text are read with the closing ones that are awaited, the nearest first.

* `Code.Nested` is the grammar of texts whose brackets are nested;
* `Code.awaited?` reads the brackets of a text, and `Code.awaited?_eq_some_nil_iff` says that it
  gets through exactly the nested texts with none left open; `Code.depth?` is how many are open;
* `Code.brackets` are the brackets of a text, on which alone the reading depends
  (`Code.awaited?_brackets`).
-/

namespace BoardWiring

namespace Code

/-- The bracket that closes an opening one. -/
def closing? : Char → Option Char
  | '(' => some ')'
  | '[' => some ']'
  | '\x7b' => some '\x7d'
  | _ => none

/-- A closing bracket. -/
def isClosing (c : Char) : Bool := c == ')' || c == ']' || c == '\x7d'

/-- An opening or a closing bracket. -/
def isBracket (c : Char) : Bool := (closing? c).isSome || isClosing c

/-- Texts with nested brackets: what stands between an opening bracket and the one that closes it is
such a text itself. -/
inductive Nested : List Char → Prop where
  | nil : Nested []
  | plain {c : Char} {cs : List Char} (h : isBracket c = false) (rest : Nested cs) :
      Nested (c :: cs)
  | group {c d : Char} {cs ds : List Char} (h : closing? c = some d) (inside : Nested cs)
      (rest : Nested ds) : Nested (c :: (cs ++ d :: ds))

/-- Reads one character.  An opening bracket is awaited to be closed, and a closing one must be the
one that is awaited next. -/
def await (awaited : List Char) (c : Char) : Option (List Char) :=
  match closing? c with
  | some d => some (d :: awaited)
  | none =>
    if isClosing c then
      match awaited with
      | d :: rest => if c = d then some rest else none
      | [] => none
    else some awaited

/-- The closing brackets that are awaited behind a text, the nearest first, if every closing bracket
in it matches the nearest open one. -/
def awaited? (awaited : List Char) (cs : List Char) : Option (List Char) := cs.foldlM await awaited

/-- The number of brackets that are open at the end of a text, if every closing one matches. -/
def depth? (s : String) : Option Nat := (awaited? [] s.toList).map List.length

example : depth? "let a = [f(" = some 2 ∧ depth? "let a = [f(x)];" = some 0 ∧
    depth? "(]" = none := by
  decide

variable {cs ds awaited : List Char} {c d : Char}

/-! ### Reading -/

theorem awaited?_cons (awaited : List Char) (c : Char) (cs : List Char) :
    awaited? awaited (c :: cs) = (await awaited c).bind fun next => awaited? next cs :=
  List.foldlM_cons

theorem awaited?_append (awaited cs ds : List Char) :
    awaited? awaited (cs ++ ds) = (awaited? awaited cs).bind fun next => awaited? next ds :=
  List.foldlM_append

theorem await_plain (h : isBracket c = false) : await awaited c = some awaited := by
  simp only [isBracket, Bool.or_eq_false_iff, Option.isSome_eq_false_iff, Option.isNone_iff_eq_none]
    at h
  simp [await, h.1, h.2]

theorem await_opening (h : closing? c = some d) : await awaited c = some (d :: awaited) := by
  simp [await, h]

theorem isClosing_of_closing? (h : closing? c = some d) :
    isClosing d = true ∧ closing? d = none := by
  unfold closing? at h
  split at h <;> cases h <;> decide

theorem await_closing (h : closing? c = some d) : await (d :: awaited) d = some awaited := by
  obtain ⟨hclosing, hnone⟩ := isClosing_of_closing? h
  simp [await, hclosing, hnone]

/-- The brackets of a nested text leave alone what is awaited around it. -/
theorem Nested.awaited?_eq (h : Nested cs) (awaited : List Char) :
    awaited? awaited cs = some awaited := by
  induction h generalizing awaited with
  | nil => rfl
  | plain hplain _ ih => rw [awaited?_cons, await_plain hplain, Option.bind_some, ih]
  | group hclosing _ _ ihinside ihrest =>
    rw [awaited?_cons, await_opening hclosing, Option.bind_some, awaited?_append, ihinside,
      Option.bind_some, awaited?_cons, await_closing hclosing, Option.bind_some, ihrest]

/-- A text that closes what is awaited: it is cut at the closing brackets into nested texts. -/
def Closes : List Char → List Char → Prop
  | [], cs => Nested cs
  | d :: awaited, cs => ∃ inside rest, cs = inside ++ d :: rest ∧ Nested inside ∧
      Closes awaited rest

theorem Closes.plain (hc : isBracket c = false) (h : Closes awaited cs) :
    Closes awaited (c :: cs) := by
  cases awaited with
  | nil => exact Nested.plain hc h
  | cons d awaited =>
    obtain ⟨inside, rest, rfl, hinside, hrest⟩ := h
    exact ⟨c :: inside, rest, rfl, .plain hc hinside, hrest⟩

theorem Closes.group (hc : closing? c = some d) (hinside : Nested cs) (h : Closes awaited ds) :
    Closes awaited (c :: (cs ++ d :: ds)) := by
  cases awaited with
  | nil => exact Nested.group hc hinside h
  | cons e awaited =>
    obtain ⟨inside, rest, rfl, hds, hrest⟩ := h
    exact ⟨c :: (cs ++ d :: inside), rest, by simp, .group hc hinside hds, hrest⟩

/-- A text behind which nothing is awaited closes all that was awaited before it. -/
theorem closes_of_awaited? (h : awaited? awaited cs = some []) : Closes awaited cs := by
  induction cs generalizing awaited with
  | nil =>
    have hnil : awaited = [] := Option.some.inj h
    subst hnil
    exact Nested.nil
  | cons c cs ih =>
    rw [awaited?_cons] at h
    cases hopening : closing? c with
    | some d =>
      rw [await_opening hopening, Option.bind_some] at h
      obtain ⟨inside, rest, rfl, hinside, hrest⟩ := ih h
      exact hrest.group hopening hinside
    | none =>
      cases hclosing : isClosing c with
      | false =>
        have hplain : isBracket c = false := by simp [isBracket, hopening, hclosing]
        rw [await_plain hplain, Option.bind_some] at h
        exact (ih h).plain hplain
      | true =>
        -- The bracket closes the one that is awaited, or the reading stops here.
        cases awaited with
        | nil => simp [await, hopening, hclosing] at h
        | cons d awaited =>
          by_cases hcd : c = d
          · subst hcd
            simp only [await, hopening, hclosing, if_true, Option.bind_some] at h
            exact ⟨[], cs, rfl, .nil, ih h⟩
          · simp [await, hopening, hclosing, hcd] at h

/-- **The reading gets through exactly the nested texts with no bracket left open.** -/
theorem awaited?_eq_some_nil_iff : awaited? [] cs = some [] ↔ Nested cs :=
  ⟨fun h => closes_of_awaited? h, fun h => h.awaited?_eq []⟩

theorem Nested.append (hc : Nested cs) (hd : Nested ds) : Nested (cs ++ ds) := by
  rw [← awaited?_eq_some_nil_iff, awaited?_append, hc.awaited?_eq, Option.bind_some,
    hd.awaited?_eq]

instance : Decidable (Nested cs) := decidable_of_iff _ awaited?_eq_some_nil_iff

/-! ### Brackets alone -/

/-- The brackets of a text. -/
def brackets (s : String) : List Char := s.toList.filter isBracket

theorem awaited?_brackets (awaited cs : List Char) :
    awaited? awaited (cs.filter isBracket) = awaited? awaited cs := by
  induction cs generalizing awaited with
  | nil => rfl
  | cons c cs ih =>
    cases hc : isBracket c with
    | true =>
      rw [List.filter_cons_of_pos hc, awaited?_cons, awaited?_cons]
      simp only [ih]
    | false =>
      rw [List.filter_cons_of_neg (by simp [hc]), ih, awaited?_cons, await_plain hc,
        Option.bind_some]

/-- **A text is nested if and only if its brackets are.** -/
theorem nested_brackets_iff {s : String} : Nested (brackets s) ↔ Nested s.toList := by
  rw [← awaited?_eq_some_nil_iff, brackets, awaited?_brackets, awaited?_eq_some_nil_iff]

theorem brackets_append (s t : String) : brackets (s ++ t) = brackets s ++ brackets t := by
  rw [brackets, String.toList_append, List.filter_append]
  rfl

theorem brackets_eq_nil {s : String} (h : ∀ c ∈ s.toList, isBracket c = false) :
    brackets s = [] :=
  List.filter_eq_nil_iff.2 fun c hc => by simp [h c hc]

theorem brackets_intercalate {sep : String} (hsep : brackets sep = []) (ss : List String) :
    brackets (String.intercalate sep ss) = ss.flatMap brackets := by
  induction ss with
  | nil => rfl
  | cons s ss ih =>
    cases ss with
    | nil => simp
    | cons t ss =>
      rw [String.intercalate_cons_cons, brackets_append, brackets_append, hsep, ih,
        List.append_nil]
      rfl

end Code

end BoardWiring
