import BoardWiring.Proofs.CodeReading
import BoardWiring.Proofs.ExpressionForms

/-!
# Reading statements

What a statement introduces, and whether it fails the build, is read off its text alone, whatever
the spelling of the pin that it is about.

* `Name.IsWord` says what a name in a statement looks like, and `Name.isWord_ofText` that every
  text gives one;
* `Code.declared?` is the name that a line introduces, and `Code.failing?` the expression of a line
  that fails the build;
* `Code.declared?_statement` and `Code.failing?_statement` read a statement that gives a value a
  name, and `Code.items?_statement` one that lists names;
* `Code.declared?_of_isInert` and `Code.failing?_of_isInert` say that fixed texts which do neither
  keep to that whatever follows them;
* `Emit.exists_opening` says that the expression for a pin begins with the words of its form, and
  `Emit.isApart_opening` that no such words fail the build.
-/

namespace BoardWiring

/-! ### Names -/

namespace Name

/-- A name that a statement may introduce. -/
structure IsWord (s : String) : Prop where
  ne_nil : s.toList ≠ []
  chars : ∀ c ∈ s.toList, isBindingChar c = true

variable {s t : String}

theorem IsBinding.isWord (h : IsBinding s) : IsWord s := by
  refine ⟨List.ne_nil_of_length_pos ?_, h.chars⟩
  have hlong := h.long
  omega

theorem IsWord.append (hs : IsWord s) (ht : ∀ c ∈ t.toList, isBindingChar c = true) :
    IsWord (s ++ t) := by
  constructor
  · rw [String.toList_append]
    exact List.append_ne_nil_of_left_ne_nil hs.ne_nil _
  · intro c hc
    rw [String.toList_append, List.mem_append] at hc
    exact hc.elim (hs.chars c) (ht c)

/-- **Every text gives a name.** -/
theorem isWord_ofText (s : String) : IsWord (ofText s) := by
  by_cases hnone : joined s.toList = []
  · have hname : ofText s = "none" := by simp [ofText, hnone]
    rw [hname]
    exact Pin.isBinding_none.isWord
  · have hname := toList_ofText hnone
    refine ⟨hname ▸ hnone, fun c hc => ?_⟩
    rw [hname] at hc
    exact isBindingChar_of_mem_joined hc

end Name

namespace Emit

open Name

theorem isWord_name (p : Pin) : IsWord p.name := isWord_ofText p.text

theorem isWord_cellName (p : Pin) (row col : Nat) : IsWord (cellName p row col) := by
  have hline : ∀ c ∈ "_".toList, isBindingChar c = true := List.all_eq_true.1 (by decide)
  have hdecimal : ∀ n, ∀ c ∈ (Digits.decimal n).toList, isBindingChar c = true :=
    fun _ _ hc => isBindingChar_decimal hc
  exact ((((isWord_name p).append hline).append (hdecimal row)).append hline).append (hdecimal col)

theorem isWord_rowName (row : Nat) : IsWord (rowName row) := (isBinding_rowName row).isWord

theorem isWord_array : ∀ s ∈ ["input_pins", "output_pins", "direct_pins"], IsWord s := by
  have hwords : ∀ s ∈ ["input_pins", "output_pins", "direct_pins"],
      s.toList ≠ [] ∧ s.toList.all isBindingChar = true := by decide
  exact fun s hs => ⟨(hwords s hs).1, List.all_eq_true.1 (hwords s hs).2⟩

end Emit

namespace Code

open Name

/-! ### What a line introduces -/

/-- The name in a declaration: the word behind its keyword, or the next one if it is a variable. -/
def declaredName (cs : List Char) : List Char :=
  let next := (cs.drop 4).takeWhile isNameChar
  if "mut ".toList.isPrefixOf cs ∧ next ≠ [] then next else cs.takeWhile isNameChar

/-- The name that a line introduces, if it is a declaration. -/
def declared? (line : String) : Option String :=
  if "let ".toList.isPrefixOf line.toList then
    some (String.ofList (declaredName (line.toList.drop 4)))
  else none

/-- A pin may even be spelt like the keyword for variables. -/
example : declared? "let mut i2c = p;" = some "i2c" ∧ declared? "let mut = p;" = some "mut" := by
  decide

variable {k name s : String}

/-- The keywords of declarations. -/
def keywords : List String := ["let ", "let mut "]

theorem isPrefixOf_declaration (hk : k ∈ keywords) (rest : String) :
    "let ".toList.isPrefixOf (k ++ rest).toList = true := by
  have hlet : ∀ k ∈ keywords, "let ".toList.isPrefixOf k.toList = true := by decide
  rw [List.isPrefixOf_iff_prefix, String.toList_append]
  exact (List.isPrefixOf_iff_prefix.1 (hlet k hk)).trans (List.prefix_append _ _)

theorem declaredName_eq (hk : k ∈ keywords) (h : IsWord name) (cs : List Char) :
    declaredName ((k.toList ++ (name.toList ++ ' ' :: '=' :: cs)).drop 4) = name.toList := by
  have hword : (name.toList ++ ' ' :: '=' :: cs).takeWhile isNameChar = name.toList := by
    rw [List.takeWhile_append_of_pos fun c hc => isNameChar_of_isBindingChar (h.chars c hc),
      List.takeWhile_cons_of_neg (by decide), List.append_nil]
  rw [keywords, List.mem_cons, List.mem_singleton] at hk
  rcases hk with rfl | rfl
  · change declaredName (name.toList ++ ' ' :: '=' :: cs) = name.toList
    rw [declaredName]
    by_cases hmut : "mut ".toList.isPrefixOf (name.toList ++ ' ' :: '=' :: cs) = true ∧
        ((name.toList ++ ' ' :: '=' :: cs).drop 4).takeWhile isNameChar ≠ []
    · -- Only a pin that is spelt like the keyword comes here, and no word follows its name.
      obtain ⟨hstart, hnext⟩ := hmut
      obtain ⟨rest, hrest⟩ := List.isPrefixOf_iff_prefix.1 hstart
      have hblank : ' ' ∉ name.toList := fun hmem => absurd (h.chars _ hmem) (by decide)
      obtain ⟨-, htail⟩ :=
        @Text.cut_inj "mut".toList name.toList rest _ ' ' (by decide) hblank hrest
      refine absurd ?_ hnext
      rw [← hrest, htail]
      rfl
    · exact (if_neg hmut).trans hword
  · change declaredName ("mut ".toList ++ (name.toList ++ ' ' :: '=' :: cs)) = name.toList
    have hmut : "mut ".toList.isPrefixOf ("mut ".toList ++ (name.toList ++ ' ' :: '=' :: cs)) =
        true ∧ (("mut ".toList ++ (name.toList ++ ' ' :: '=' :: cs)).drop 4).takeWhile
          isNameChar ≠ [] := by
      refine ⟨List.isPrefixOf_iff_prefix.2 (List.prefix_append _ _), ?_⟩
      change (name.toList ++ ' ' :: '=' :: cs).takeWhile isNameChar ≠ []
      rw [hword]
      exact h.ne_nil
    exact (if_pos hmut).trans hword

theorem toList_declaration (k name rest : String) : (k ++ name ++ " = " ++ rest).toList =
    k.toList ++ (name.toList ++ ' ' :: '=' :: ' ' :: rest.toList) := by
  simp only [String.toList_append, List.append_assoc]
  rfl

/-- The name of a declaration is read off it. -/
theorem declared?_declaration (hk : k ∈ keywords) (h : IsWord name) (rest : String) :
    declared? (k ++ name ++ " = " ++ rest) = some name := by
  have hlet : "let ".toList.isPrefixOf (k ++ name ++ " = " ++ rest).toList = true := by
    simp only [String.append_assoc]
    exact isPrefixOf_declaration hk _
  rw [declared?, if_pos hlet, toList_declaration, declaredName_eq hk h, String.ofList_toList]

theorem declared?_statement (h : IsWord name) (value : String) :
    declared? ("let " ++ name ++ " = " ++ value ++ ";") = some name := by
  rw [String.append_assoc]
  exact declared?_declaration (by decide) h _

/-! ### What a line evaluates -/

/-- What a line evaluates: what stands behind the equals sign of a declaration, or all of it. -/
def evaluated (cs : List Char) : List Char :=
  let value := if "let ".toList.isPrefixOf cs then (cs.dropWhile (· != '=')).drop 1 else cs
  value.dropWhile (· == ' ')

/-- How an expression begins that fails the build. -/
def failure : List Char := "::core::compile_error!(".toList

/-- The expression that a line evaluates, if it fails the build. -/
def failing? (line : String) : Option String :=
  if failure.isPrefixOf (evaluated line.toList) then
    some (String.ofList (evaluated line.toList).dropLast)
  else none

example : failing? "let pb16 = ::core::compile_error!(\"no line\");" =
    some "::core::compile_error!(\"no line\")" := by
  decide

/-- A text that begins no failing expression, whatever follows it. -/
def isApart (s : String) : Bool :=
  let text := s.toList.dropWhile (· == ' ')
  !failure.isPrefixOf text && !text.isPrefixOf failure

theorem dropWhile_of_isApart (h : isApart s = true) :
    s.toList.dropWhile (· == ' ') ≠ [] ∧ ¬failure <+: s.toList.dropWhile (· == ' ') ∧
      ¬s.toList.dropWhile (· == ' ') <+: failure := by
  simp only [isApart, Bool.and_eq_true, Bool.not_eq_true', Bool.eq_false_iff, Ne,
    List.isPrefixOf_iff_prefix] at h
  refine ⟨fun hnil => h.2 ?_, h⟩
  rw [hnil]
  exact List.nil_prefix

theorem dropWhile_append_of_isApart (h : isApart s = true) (cs : List Char) :
    (s.toList ++ cs).dropWhile (· == ' ') = s.toList.dropWhile (· == ' ') ++ cs := by
  rw [List.dropWhile_append, List.isEmpty_eq_false_iff.2 (dropWhile_of_isApart h).1,
    if_neg Bool.false_ne_true]

theorem not_prefix_of_isApart (h : isApart s = true) (cs : List Char) :
    ¬failure <+: (s.toList ++ cs).dropWhile (· == ' ') := by
  obtain ⟨-, hlong, hshort⟩ := dropWhile_of_isApart h
  rw [dropWhile_append_of_isApart h]
  intro hstart
  exact (List.prefix_or_prefix_of_prefix hstart (List.prefix_append _ cs)).elim hlong hshort

theorem isApart_append (h : isApart s = true) (t : String) : isApart (s ++ t) = true := by
  simp only [isApart, Bool.and_eq_true, Bool.not_eq_true', Bool.eq_false_iff, Ne,
    List.isPrefixOf_iff_prefix, String.toList_append]
  refine ⟨not_prefix_of_isApart h t.toList, ?_⟩
  rw [dropWhile_append_of_isApart h]
  intro hstart
  exact (dropWhile_of_isApart h).2.2 ((List.prefix_append _ _).trans hstart)

theorem dropWhile_declaration (hk : k ∈ keywords) (h : IsWord name) (rest : String) :
    (k ++ name ++ " = " ++ rest).toList.dropWhile (· != '=') = '=' :: ' ' :: rest.toList := by
  have hkeyword : ∀ k ∈ keywords, k.toList.all (· != '=') = true := by decide
  have hkeep : ∀ c ∈ k.toList ++ (name.toList ++ [' ']), (c != '=') = true := by
    intro c hc
    have hcases : c ∈ k.toList ∨ c ∈ name.toList ∨ c = ' ' := by
      rwa [List.mem_append, List.mem_append, List.mem_singleton] at hc
    rcases hcases with hc | hc | rfl
    · exact List.all_eq_true.1 (hkeyword k hk) c hc
    · have hname := h.chars c hc
      rw [bne_iff_ne]
      rintro rfl
      cases hname
    · rfl
  have hline : (k ++ name ++ " = " ++ rest).toList =
      (k.toList ++ (name.toList ++ [' '])) ++ '=' :: ' ' :: rest.toList := by
    rw [toList_declaration]
    simp
  rw [hline, List.dropWhile_append_of_pos hkeep]
  rfl

theorem evaluated_declaration (hk : k ∈ keywords) (h : IsWord name) (rest : String) :
    evaluated (k ++ name ++ " = " ++ rest).toList = rest.toList.dropWhile (· == ' ') := by
  have hlet : "let ".toList.isPrefixOf (k ++ name ++ " = " ++ rest).toList = true := by
    simp only [String.append_assoc]
    exact isPrefixOf_declaration hk _
  rw [evaluated, if_pos hlet, dropWhile_declaration hk h]
  rfl

/-- A declaration whose value begins like no failing expression does not fail the build. -/
theorem failing?_declaration (hk : k ∈ keywords) (h : IsWord name) (hs : isApart s = true)
    (rest : String) : failing? (k ++ name ++ " = " ++ (s ++ rest)) = none := by
  refine if_neg ?_
  rw [evaluated_declaration hk h, String.toList_append, List.isPrefixOf_iff_prefix]
  exact not_prefix_of_isApart hs _

theorem failing?_statement (h : IsWord name) (hs : isApart s = true) (rest : String) :
    failing? ("let " ++ name ++ " = " ++ (s ++ rest) ++ ";") = none := by
  rw [String.append_assoc, @String.append_assoc s]
  exact failing?_declaration (by decide) h hs _

theorem toList_expression (message : String) : (Diagnostic.expression message).toList =
    failure ++ ((JsonString.literal message).toList ++ ")".toList) := by
  unfold Diagnostic.expression failure
  rw [String.toList_append, String.toList_append, List.append_assoc]

theorem dropLast_expression (message : String) :
    failure.isPrefixOf ((Diagnostic.expression message ++ ";").toList.dropWhile (· == ' ')) =
        true ∧
      ((Diagnostic.expression message ++ ";").toList.dropWhile (· == ' ')).dropLast =
        (Diagnostic.expression message).toList := by
  have hexpression := toList_expression message
  have hblank : (Diagnostic.expression message ++ ";").toList.dropWhile (· == ' ') =
      (Diagnostic.expression message).toList ++ [';'] := by
    rw [String.toList_append, hexpression]
    rfl
  rw [hblank, List.dropLast_concat, List.isPrefixOf_iff_prefix]
  refine ⟨?_, rfl⟩
  rw [hexpression, List.append_assoc]
  exact List.prefix_append _ _

theorem failing?_binding (h : IsWord name) (message : String) :
    failing? ("let " ++ name ++ " = " ++ Diagnostic.expression message ++ ";") =
      some (Diagnostic.expression message) := by
  obtain ⟨hstart, hlast⟩ := dropLast_expression message
  have hevaluated := evaluated_declaration (k := "let ") (by decide) h
    (Diagnostic.expression message ++ ";")
  rw [String.append_assoc, failing?, hevaluated, if_pos hstart, hlast, String.ofList_toList]

/-! ### Lines that introduce nothing -/

/-- A text that begins no declaration, whatever follows it. -/
def isUndeclared (s : String) : Bool :=
  !"let ".toList.isPrefixOf s.toList && !s.toList.isPrefixOf "let ".toList

/-- A text that begins neither a declaration nor a failing expression, whatever follows it. -/
def isInert (s : String) : Bool := isUndeclared s && isApart s

theorem not_declaration (h : isUndeclared s = true) (rest : String) :
    ¬"let ".toList.isPrefixOf (s ++ rest).toList = true := by
  simp only [isUndeclared, Bool.and_eq_true, Bool.not_eq_true', Bool.eq_false_iff, Ne,
    List.isPrefixOf_iff_prefix] at h
  rw [String.toList_append, List.isPrefixOf_iff_prefix]
  intro hstart
  exact (List.prefix_or_prefix_of_prefix hstart (List.prefix_append _ _)).elim h.1 h.2

theorem declared?_of_isUndeclared (h : isUndeclared s = true) (rest : String) :
    declared? (s ++ rest) = none :=
  if_neg (not_declaration h rest)

theorem declared?_of_isInert (h : isInert s = true) (rest : String) :
    declared? (s ++ rest) = none :=
  declared?_of_isUndeclared (Bool.and_eq_true_iff.1 h).1 rest

theorem failing?_of_isInert (h : isInert s = true) (rest : String) :
    failing? (s ++ rest) = none := by
  obtain ⟨hundeclared, happart⟩ := Bool.and_eq_true_iff.1 h
  refine if_neg ?_
  rw [evaluated, if_neg (not_declaration hundeclared rest), String.toList_append,
    List.isPrefixOf_iff_prefix]
  exact not_prefix_of_isApart happart _

theorem isUndeclared_failure : isUndeclared "::core::compile_error!(" = true := by decide

/-- A failing expression that is a statement on its own introduces nothing, and is read off it. -/
theorem declared?_failing (message : String) :
    declared? (Diagnostic.expression message ++ ";") = none := by
  unfold Diagnostic.expression
  rw [String.append_assoc, String.append_assoc]
  exact declared?_of_isUndeclared isUndeclared_failure _

theorem failing?_failing (message : String) :
    failing? (Diagnostic.expression message ++ ";") = some (Diagnostic.expression message) := by
  obtain ⟨hstart, hlast⟩ := dropLast_expression message
  have hlet : ¬"let ".toList.isPrefixOf (Diagnostic.expression message ++ ";").toList = true := by
    unfold Diagnostic.expression
    rw [String.append_assoc, String.append_assoc]
    exact not_declaration isUndeclared_failure _
  rw [failing?, evaluated, if_neg hlet, if_pos hstart, hlast, String.ofList_toList]

/-! ### Lines that list names -/

theorem isSome_introduced? (cs : List Char) :
    (introduced? ("let ".toList ++ cs)).isSome = true := by
  change (introduced? ('l' :: 'e' :: 't' :: ' ' :: cs)).isSome = true
  unfold introduced?
  split
  · rfl
  · rfl
  · rename_i hno
    exact absurd rfl (hno _)

theorem isPathChar_of_isWord (h : IsWord name) :
    name.toList ≠ [] ∧ ∀ c ∈ name.toList, isPathChar c = true := by
  refine ⟨h.ne_nil, fun c hc => ?_⟩
  simp [isPathChar, isNameChar_of_isBindingChar (h.chars c hc)]

theorem array_eq_statement (name : String) (items : List String) :
    Fragment.array name items =
      Emit.statement name ("[" ++ String.intercalate ", " items ++ "]") := by
  have hopen : " = [" = " = " ++ "[" := rfl
  have hclose : "];" = "]" ++ ";" := rfl
  simp only [Fragment.array, Emit.statement, hopen, hclose, String.append_assoc]

theorem items?_statement {items : List String} (h : IsWord name)
    (hitems : ∀ item ∈ items, IsWord item) :
    items? ("let " ++ name ++ " = " ++ ("[" ++ String.intercalate ", " items ++ "]") ++
      ";").toList = some (items.map String.toList) := by
  have hcomputed : ∀ value : String,
      computed ("let " ++ name ++ " = " ++ value ++ ";").toList =
        ' ' :: (value.toList ++ [';']) := by
    intro value
    have hsplit := dropWhile_declaration (k := "let ") (by decide) h (value ++ ";")
    have hintroduced : (introduced? ("let " ++ name ++ " = " ++ (value ++ ";")).toList).isSome := by
      rw [toList_declaration]
      exact isSome_introduced? _
    rw [String.append_assoc, computed, if_pos hintroduced, hsplit, String.toList_append]
    rfl
  have hlist : ∀ inner : String, [' ', '['].isPrefixOf
      (' ' :: (("[" ++ inner).toList ++ [';'])) = true := by
    intro inner
    rw [String.toList_append]
    rfl
  have hwords := words_list fun item hitem => isPathChar_of_isWord (hitems item hitem)
  rw [items?, hcomputed, String.append_assoc, if_pos (hlist _), ← String.append_assoc,
    words_cons_cut (by decide), words_append_cut (by decide), hwords]
  exact congrArg some (List.append_nil _)

end Code

/-! ### Expressions for pins -/

namespace Emit

open Code

variable {family : Family} {pin : Pin} {role : Role} {activeLow : Bool}

/-- The expression for a pin that does not stop the emitters and can serve in its role begins with
the words of its form. -/
theorem exists_opening (hstop : stopFault? family pin role = none)
    (hrole : roleFault? family pin role = none) :
    ∃ rest, expression family pin role activeLow =
      Form.opening family (Form.of family role pin) ++ rest := by
  cases pin with
  | absent => cases hstop
  | mcu name number =>
    have hexpression := @expression_chip family activeLow role name number hrole
    exact ⟨_, hexpression⟩
  | expander p =>
    have hbank : p.inBank = true := by
      by_contra hbank
      have hplain : role ≠ .interruptInput := by
        rintro rfl
        cases hrole
      have hfault : pinFault? (.expander p) role = some (.expanderIndex p) :=
        if_neg (not_or.2 ⟨hplain, hbank⟩)
      rw [stopFault?, hfault] at hstop
      split_ifs at hstop
      cases hstop
    exact ⟨_, expression_remote hbank hrole⟩

theorem isApart_opening (f : Form) : isApart (Form.opening family f) = true := by
  have hlead : ∀ remote, isApart (Form.lead family remote) = true := by
    cases family <;> decide
  exact isApart_append (hlead f.isRemote) _

end Emit

end BoardWiring
