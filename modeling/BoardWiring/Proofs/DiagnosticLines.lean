import BoardWiring.Proofs.FragmentTruth
import BoardWiring.Proofs.LiteralReading
import BoardWiring.Proofs.PrintableReports

/-!
# Lines that fail the build

A pin that cannot do what is asked of it gets a line that fails the build with a message.  Whatever
the name of the pin is, this is one line, and the literal in it is read as the message.

* `Code.reported?` reads the message of a failing expression by the rules of the code;
* `Fragment.TellsMessages` says that the failing lines of a fragment are single lines with the
  messages of the errors that it carries;
* `Diagnostic.lines_tell_messages` says this of the statements for pins and for layouts, after what
  the literals of all messages have in common.
-/

namespace BoardWiring

open Code Name Outcome Text

/-- The message of an expression that fails the build. -/
def Code.reported? (expression : String) : Option String :=
  let cs := expression.toList
  if Code.failure.isPrefixOf cs ∧ cs.getLast? = some ')' then
    CodeString.decode? (String.ofList (cs.drop Code.failure.length).dropLast)
  else none

theorem Code.reported?_expression (message : String) :
    reported? (Diagnostic.expression message) =
      CodeString.decode? (JsonString.literal message) := by
  have hclose : ")".toList = [')'] := rfl
  have hexpression := toList_expression message
  rw [hclose] at hexpression
  have hstart : Code.failure.isPrefixOf (Diagnostic.expression message).toList = true := by
    rw [hexpression, List.isPrefixOf_iff_prefix]
    exact List.prefix_append _ _
  have hlast : (Diagnostic.expression message).toList.getLast? = some ')' := by
    rw [hexpression, ← List.append_assoc, List.getLast?_concat]
  have hliteral : ((Diagnostic.expression message).toList.drop Code.failure.length).dropLast =
      (JsonString.literal message).toList := by
    rw [hexpression, List.drop_left, List.dropLast_concat]
  rw [reported?, if_pos ⟨hstart, hlast⟩, hliteral, String.ofList_toList]

/-! ### Legible lines -/

theorem Name.isPrintable_of_isBindingChar {c : Char} (h : isBindingChar c = true) :
    isPrintable c = true := by
  have hrange : 0x20 ≤ c.toNat ∧ c.toNat < 0x7f := by
    rw [isBindingChar, Bool.or_eq_true, Bool.or_eq_true] at h
    rcases h with (hlower | hdigit) | hline
    · obtain ⟨hlo, hhi⟩ : 97 ≤ c.toNat ∧ c.toNat ≤ 122 := isLower_iff.1 hlower
      omega
    · obtain ⟨hlo, hhi⟩ : 48 ≤ c.toNat ∧ c.toNat ≤ 57 := isDigit_iff.1 hdigit
      omega
    · rw [beq_iff_eq.1 hline]
      decide
  exact isPrintable_of_ascii hrange.1 hrange.2

theorem Name.IsWord.isLegible {name : String} (h : IsWord name) : IsLegible name :=
  fun c hc => isPrintable_of_isBindingChar (h.chars c hc)

theorem CodeString.isShared_of_isLegible {s : String} (h : IsLegible s) : IsShared s.toList :=
  fun c hc => Or.inl (visible_of_isPrintable (h c hc))

theorem JsonString.isPrintable_of_mem_escape {c : Char} (h : isPrintable c = true) :
    ∀ d ∈ escape c, isPrintable d = true := by
  refine escape_cases (P := fun w => ∀ d ∈ w, isPrintable d = true) c
    (fun e hshort => ?_) (fun _ hcontrol => ?_) fun _ _ => List.forall_mem_singleton.2 h
  · have hletters : ∀ r ∈ shortEscapes, isPrintable r.2 = true := by decide
    exact List.forall_mem_cons.2 ⟨by decide, List.forall_mem_singleton.2
      (hletters _ (shortEscape?_eq_some_iff.1 hshort))⟩
  · have hvisible := visible_of_isPrintable h
    omega

theorem JsonString.isLegible_literal {s : String} (h : IsLegible s) : IsLegible (literal s) := by
  rw [IsLegible, toList_literal, List.forall_mem_cons, List.forall_mem_append]
  refine ⟨by decide, fun c hc => ?_, List.forall_mem_singleton.2 (by decide)⟩
  obtain ⟨d, hd, hc⟩ := List.mem_flatMap.1 hc
  exact isPrintable_of_mem_escape (h d hd) c hc

theorem Diagnostic.isLegible_expression {message : String} (h : IsLegible message) :
    IsLegible (expression message) :=
  isLegible_append.2 ⟨isLegible_append.2 ⟨by decide, JsonString.isLegible_literal h⟩, by decide⟩

/-! ### Fragments -/

/-- The failing lines of a fragment are single lines with the messages of the errors that it
carries, in order. -/
structure Fragment.TellsMessages (f : Fragment) : Prop where
  messages : (f.lines.filterMap failing?).map reported? = f.diagnostics.map fun e => some e.message
  oneLine : ∀ line ∈ f.lines, failing? line ≠ none → IsLegible line

namespace Fragment

variable {f : Fragment} {name : String} {e : ConfigError}

/-- What a fragment says of its lines is read off them, if the messages are legible. -/
theorem IsTruthful.tellsMessages (h : IsTruthful f) (hlegible : ∀ e ∈ f.diagnostics, e.IsLegible)
    (hline : ∀ line ∈ f.lines, failing? line ≠ none → IsLegible line) : f.TellsMessages := by
  refine ⟨?_, hline⟩
  rw [h.diagnostics, List.map_map]
  refine List.map_congr_left fun e he => ?_
  have hshared := CodeString.isShared_of_isLegible (hlegible e he).message
  rw [Function.comp_apply, reported?_expression, CodeString.decode?_literal, if_pos hshared]

theorem isLegible_of_mem_fragment (hname : IsLegible name) (he : e.IsLegible) :
    ∀ line ∈ (Diagnostic.fragment e name).lines, IsLegible line := by
  have hexpression := Diagnostic.isLegible_expression he.message
  unfold Diagnostic.fragment
  split_ifs
  · exact List.forall_mem_singleton.2 (isLegible_append.2 ⟨hexpression, by decide⟩)
  · refine List.forall_mem_singleton.2 ?_
    simp only [isLegible_append, hname, hexpression, and_true]
    decide

theorem tellsMessages_fragment (hname : name = "" ∨ IsWord name) (he : e.IsLegible) :
    (Diagnostic.fragment e name).TellsMessages := by
  have hcarried : (Diagnostic.fragment e name).diagnostics = [e] := by
    unfold Diagnostic.fragment
    split_ifs <;> rfl
  have hlegible : ∀ d ∈ (Diagnostic.fragment e name).diagnostics, d.IsLegible := by
    rw [hcarried]
    exact List.forall_mem_singleton.2 he
  obtain rfl | hname := hname
  · exact (isTruthful_unnamed e).tellsMessages hlegible fun line hline _ =>
      isLegible_of_mem_fragment (by decide) he line hline
  · exact (isTruthful_fragment hname e).tellsMessages hlegible fun line hline _ =>
      isLegible_of_mem_fragment hname.isLegible he line hline

end Fragment

open Fragment

namespace Emit

variable {family : Family} {pin : Pin} {role : Role} {activeLow interrupt : Bool} {name : String}

/-- A failing line of the statement for a pin is legible, whatever the name of the pin is. -/
theorem isLegible_of_mem_part (hname : IsWord name) (hstop : stopFault? family pin role = none)
    (wrap : Wrap) : ∀ line ∈ (part family name pin role activeLow wrap).lines,
      failing? line ≠ none → IsLegible line := by
  intro line hline hfails
  cases hrole : roleFault? family pin role with
  | some e =>
    have hpart : part family name pin role activeLow wrap = Diagnostic.fragment e name := by
      rw [part, hrole]
    rw [hpart] at hline
    exact isLegible_of_mem_fragment hname.isLegible (isLegible_of_roleFault? hrole) line hline
  | none =>
    have hnone : (part family name pin role activeLow wrap).diagnostics = [] := by
      rw [diagnostics_part, hrole]
      rfl
    exact absurd ((isTruthful_part hname hstop wrap).failing?_eq_none hnone hline) hfails

/-- **The statement for a pin tells the message of the error that it carries.** -/
theorem tellsMessages_bind (hname : IsWord name) {wrap : Wrap} {f : Fragment}
    (h : bind family name pin role activeLow wrap = .ok f) : f.TellsMessages := by
  rw [bind_eq, ofFault?_eq_ok_iff] at h
  obtain ⟨hstop, rfl⟩ := h
  refine (isTruthful_part hname hstop wrap).tellsMessages (fun e he => ?_)
    (isLegible_of_mem_part hname hstop wrap)
  rw [diagnostics_part, Option.mem_toList] at he
  exact isLegible_of_roleFault? he

theorem isLegible_of_mem_statements {l : Layout Pin}
    (hstop : layoutFault? family interrupt l = none) :
    ∀ line ∈ (statements family interrupt activeLow l).lines,
      failing? line ≠ none → IsLegible line := by
  have hbuilds : ∀ {f : Fragment}, f.IsTruthful → f.diagnostics = [] →
      ∀ line ∈ f.lines, failing? line ≠ none → IsLegible line :=
    fun hf hnone line hline hfails => absurd (hf.failing?_eq_none hnone hline) hfails
  refine statements_induction (P := fun f => ∀ line ∈ f.lines, failing? line ≠ none →
    IsLegible line) ?_ (fun f g hf hg line hline => ?_) (fun name items hname => ?_)
    (fun name hname => ?_) (fun name pin role wrap hname hpin => ?_) hstop
  · exact hbuilds isTruthful_empty rfl
  · rcases List.mem_append.1 hline with hline | hline
    · exact hf line hline
    · exact hg line hline
  · exact hbuilds (isTruthful_array hname items) rfl
  · exact hbuilds (isTruthful_statement (s := "None") hname (by decide) "") rfl
  · exact isLegible_of_mem_part hname hpin wrap

/-- **The statements for a layout tell the messages of the errors that they carry.** -/
theorem tellsMessages_layout {l : Layout Pin} {f : Fragment}
    (h : layout family l interrupt activeLow = .ok f) : f.TellsMessages := by
  rw [layout_eq_ofFault?, ofFault?_eq_ok_iff] at h
  obtain ⟨hstop, rfl⟩ := h
  exact (isTruthful_statements hstop).tellsMessages (fun e => isLegible_of_mem_diagnostics)
    (isLegible_of_mem_statements hstop)

theorem tellsMessages_nameOr {given : Option String} {f : Fragment}
    (hgiven : ∀ s, given = some s → s ≠ "" → IsWord s)
    (h : (nameOr pin given >>= fun name => bind family name pin role activeLow .plain) = .ok f) :
    f.TellsMessages := by
  have hown : (ownName pin >>= fun name => bind family name pin role activeLow .plain) = .ok f →
      f.TellsMessages := by
    rw [ownName_bind]
    exact tellsMessages_bind (isWord_name pin)
  cases given with
  | none => exact hown h
  | some s =>
    unfold nameOr at h
    dsimp only at h
    split_ifs at h with hs
    · exact hown h
    · exact tellsMessages_bind (hgiven s rfl hs) h

end Emit

theorem Diagnostic.toList_expression_inside (message : String) :
    (expression message).toList =
      "::core::compile_error!(\"".toList ++ JsonString.inside message ++ "\")".toList := by
  have hopen : "::core::compile_error!(\"".toList = Code.failure ++ ['"'] := by decide
  have hclose : "\")".toList = ['"'] ++ ")".toList := by decide
  rw [toList_expression, JsonString.toList_literal, hopen, hclose]
  simp only [List.append_assoc, List.cons_append, List.nil_append]

theorem Diagnostic.expression_injective : Function.Injective expression := by
  intro m n h
  have hlist := congrArg String.toList h
  rw [toList_expression, toList_expression] at hlist
  have hliteral := List.append_cancel_right (List.append_cancel_left hlist)
  exact JsonString.literal_injective (String.toList_inj.1 hliteral)

/-- **Failing lines tell their messages.**  For every message, the text between the quotes of the
failing expression holds no bare quote and no control character.  It is read as JSON as the message,
so that no two messages have one expression, and it is read as code as the message if this holds no
control characters but tabs, line feeds and carriage returns.  Whatever the name, address and number
of a pin, each failing line of its statement, and each of the statements for a layout, is a single
line, and the literals in these are read as the messages of the errors that are carried. -/
theorem Diagnostic.lines_tell_messages :
    (∀ message,
      (expression message).toList =
        "::core::compile_error!(\"".toList ++ JsonString.inside message ++ "\")".toList ∧
      JsonString.IsEscaped (JsonString.inside message) ∧
      (∀ c ∈ JsonString.inside message, 0x20 ≤ c.toNat) ∧
      JsonString.decode? (JsonString.literal message) = some message ∧
      (CodeString.IsShared message.toList → reported? (expression message) = some message)) ∧
    Function.Injective expression ∧
    (∀ family pin role e name, Emit.roleFault? family pin role = some e →
      name = "" ∨ IsWord name → (fragment e name).TellsMessages) ∧
    (∀ family pin activeLow name f, (∀ s, name = some s → s ≠ "" → IsWord s) →
      Emit.outputPin family pin activeLow name = .ok f → f.TellsMessages) ∧
    (∀ family pin role activeLow name f, (∀ s, name = some s → s ≠ "" → IsWord s) →
      Emit.inputPin family pin role activeLow name = .ok f → f.TellsMessages) ∧
    ∀ family l interrupt activeLow f,
      Emit.layout family l interrupt activeLow = .ok f → f.TellsMessages := by
  refine ⟨fun message => ⟨?_, JsonString.isEscaped_inside message,
    JsonString.visible_inside message, JsonString.decode?_literal message, fun hshared => ?_⟩,
    fun m n h => ?_, fun family pin role e name he hname => ?_,
    fun family pin activeLow name f hname h => ?_,
    fun family pin role activeLow name f hname h => ?_, fun family l interrupt activeLow f h => ?_⟩
  · exact toList_expression_inside message
  · rw [reported?_expression, CodeString.decode?_literal, if_pos hshared]
  · exact expression_injective h
  · exact tellsMessages_fragment hname (Emit.isLegible_of_roleFault? he)
  · exact Emit.tellsMessages_nameOr hname h
  · unfold Emit.inputPin at h
    split_ifs at h
    exact Emit.tellsMessages_nameOr hname h
  · exact Emit.tellsMessages_layout h

/-- An input on a pin without an interrupt line, with a quote and a line feed in its name. -/
theorem Diagnostic.lines_tell_messages_quoted :
    CodeString.IsShared "no\tline".toList ∧
      reported? (expression "no\tline") = some "no\tline" ∧
      ∃ f, Emit.inputPin .stm32 (.mcu "P\"A\n" 16) .interruptInput true none = .ok f ∧
        f.diagnostics = [.noInterruptLine "P\"A\n" 16] ∧ f.TellsMessages := by
  have hshared : CodeString.IsShared "no\tline".toList := by decide
  have hinput : Emit.inputPin .stm32 (.mcu "P\"A\n" 16) .interruptInput true none =
      .ok (fragment (.noInterruptLine "P\"A\n" 16) "p_a") := by
    have hname : Emit.nameOr (.mcu "P\"A\n" 16) none = .ok "p_a" := rfl
    have hsound : (Pin.mcu "P\"A\n" 16).isSound = true := Digits.isWritable_of_lt (by decide)
    rw [Emit.inputPin, if_neg (by decide), hname, Outcome.ok_bind, Emit.bind_eq,
      Emit.stopFault?_of_sound hsound]
    rfl
  have hgiven : ∀ s, (none : Option String) = some s → s ≠ "" → IsWord s := by
    rintro s ⟨⟩
  exact ⟨hshared, (lines_tell_messages.1 _).2.2.2.2 hshared, _, hinput, rfl,
    lines_tell_messages.2.2.2.2.1 _ _ _ _ none _ hgiven hinput⟩

end BoardWiring
