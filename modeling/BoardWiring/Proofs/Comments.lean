import BoardWiring.Proofs.CodeReading
import BoardWiring.Proofs.Verdict
import Mathlib.Data.List.Basic

/-!
# What stands outside the comments

The text of a unit begins with two comments, one with the name of the file and one with the name of
the board.  Both names are written as they are, so a line feed in one of them ends its comment, and
what stands behind it is code.

* `Code.uncommented` are the lines of a text that are no comments;
* `GeneratedUnit.uncommented_render` splits those of a unit into what its comments spill and its
  code, and `Board.generate_rename` says that the code does not depend on the names;
* `Board.uncommented_eq_iff` says that two names of a board, and of its file, give the same code
  outside the comments if and only if they spill the same, and that names of one line spill
  nothing.
-/

namespace BoardWiring

namespace Code

variable {cs ds head : List CodePoint}

/-- The character that ends a line. -/
def isFeed (p : CodePoint) : Bool := p == .char '\n'

/-- The line is a comment. -/
def isComment (line : List CodePoint) : Bool := (LooseText.ofString "//").points.isPrefixOf line

/-- The lines of a text that are no comments. -/
def uncommented (cs : List CodePoint) : List (List CodePoint) :=
  (Text.pieces isFeed cs).filter fun line => !isComment line

/-- The lines of a text behind its first one that are no comments. -/
def spilled (cs : List CodePoint) : List (List CodePoint) :=
  (Text.pieces isFeed cs).tail.filter fun line => !isComment line

theorem isFeed_eq_false (h : .char '\n' ∉ cs) : ∀ c ∈ cs, isFeed c = false := by
  intro c hc
  rw [isFeed, beq_eq_false_iff_ne]
  rintro rfl
  exact h hc

theorem pieces_append_keep {cut : CodePoint → Bool} (h : ∀ c ∈ head, cut c = false) :
    Text.pieces cut (head ++ cs) =
      (head ++ (Text.pieces cut cs).headD []) :: (Text.pieces cut cs).tail := by
  induction head with
  | nil =>
    obtain ⟨p, ps, hp⟩ := List.exists_cons_of_ne_nil (Text.pieces_ne_nil cut cs)
    rw [List.nil_append, List.nil_append, hp]
    rfl
  | cons c head ih =>
    rw [List.forall_mem_cons] at h
    rw [List.cons_append, Text.pieces, ih h.2, if_neg (by simp [h.1])]
    rfl

/-- A comment spills the further lines of what it is about. -/
theorem uncommented_comment (hline : .char '\n' ∉ head) (hcomment : isComment head = true)
    (cs : List CodePoint) : uncommented (head ++ cs) = spilled cs := by
  -- The first line goes on to the first line feed, and it is a comment whatever it ends with.
  have hfirst : isComment (head ++ (Text.pieces isFeed cs).headD []) = true := by
    rw [isComment, List.isPrefixOf_iff_prefix] at hcomment ⊢
    exact hcomment.trans (List.prefix_append _ _)
  rw [uncommented, pieces_append_keep (isFeed_eq_false hline), List.filter_cons, hfirst]
  rfl

theorem spilled_eq_nil (h : .char '\n' ∉ cs) : spilled cs = [] := by
  rw [spilled, pieces_eq_singleton (isFeed_eq_false h)]
  rfl

theorem uncommented_append_feed :
    uncommented (cs ++ .char '\n' :: ds) = uncommented cs ++ uncommented ds := by
  rw [uncommented, pieces_append_cut (by decide), List.filter_append]
  rfl

end Code

open Code

/-! ### Units -/

namespace GeneratedUnit

/-- What the two comments of a unit spill. -/
def spill (family : Family) (source : String) (name : LooseText) : List (List CodePoint) :=
  (if source = "" then [] else spilled (LooseText.ofString (source ++ " -- DO NOT EDIT")).points) ++
    spilled (name ++ (" (" ++ family.name ++ ")" : String)).points

/-- The lines of a unit that are no comments, but for those that its two comments spill. -/
def code (u : GeneratedUnit) : List (List CodePoint) :=
  uncommented (LooseText.ofString u.body).points

theorem uncommented_header (u : GeneratedUnit) :
    uncommented (LooseText.ofString u.header).points =
      if u.source = "" then []
      else spilled (LooseText.ofString (u.source ++ " -- DO NOT EDIT")).points := by
  unfold header
  split_ifs
  · decide
  · rw [String.append_assoc, LooseText.ofString_append, LooseText.points_append]
    exact uncommented_comment (by decide) (by decide) _

theorem uncommented_title (u : GeneratedUnit) : uncommented u.title.points =
    spilled (u.boardName ++ (" (" ++ u.family.name ++ ")" : String)).points := by
  rw [title, LooseText.points_append, LooseText.points_append, List.append_assoc]
  exact uncommented_comment (by decide) (by decide) _

/-- **Outside its comments a unit has what they spill, and its code.** -/
theorem uncommented_render (u : GeneratedUnit) :
    uncommented u.render.points = spill u.family u.source u.boardName ++ u.code := by
  have hpoints : u.render.points = (LooseText.ofString u.header).points ++ .char '\n' ::
      (u.title.points ++ .char '\n' :: (LooseText.ofString u.body).points) := by
    simp [render]
  rw [hpoints, uncommented_append_feed, uncommented_append_feed, uncommented_header,
    uncommented_title, spill, code, List.append_assoc]

theorem spill_eq_nil {family : Family} {source : String} {name : LooseText}
    (hsource : '\n' ∉ source.toList) (hname : .char '\n' ∉ name.points) :
    spill family source name = [] := by
  have hfamily : .char '\n' ∉ (LooseText.ofString (" (" ++ family.name ++ ")")).points := by
    cases family <;> decide
  have htitle : .char '\n' ∉ (name ++ (" (" ++ family.name ++ ")" : String)).points := by
    rw [LooseText.points_append, List.mem_append, not_or]
    exact ⟨hname, hfamily⟩
  have hheader : .char '\n' ∉ (LooseText.ofString (source ++ " -- DO NOT EDIT")).points := by
    rw [LooseText.points_ofString, List.mem_map_of_injective (fun _ _ => CodePoint.char.inj),
      String.toList_append, List.mem_append, not_or]
    exact ⟨hsource, by decide⟩
  rw [spill, spilled_eq_nil htitle, spilled_eq_nil hheader, ite_self]
  rfl

end GeneratedUnit

namespace Board

open GeneratedUnit

variable {b b' : Board} {source source' : String} {u u' : GeneratedUnit}

/-- The names of a board and of its file do not change what it is compiled to. -/
theorem generate_rename (h : b.generate source = .ok u) (name : LooseText) (source' : String) :
    ({ b with name := name } : Board).generate source' =
      .ok { u with boardName := name, source := source' } := by
  obtain ⟨hread, hbus, hexpanders, hunique, hrectangular, hcapable, hpins, -, hfamily, -⟩ :=
    generate_eq_ok_iff.1 h
  exact generate_eq_ok_iff.2
    ⟨hread, hbus, hexpanders, hunique, hrectangular, hcapable, hpins, rfl, hfamily, rfl⟩

/-- **Names reach the code only by a line feed.**  Two boards that differ at most in their names are
compiled to texts with the same lines outside the comments if and only if the names of the boards
and of the files spill the same from the comments; names of one line spill nothing. -/
theorem uncommented_eq_iff (h : b.generate source = .ok u) (h' : b'.generate source' = .ok u')
    (hsame : b' = { b with name := b'.name }) :
    (uncommented u.render.points = uncommented u'.render.points ↔
      spill b.family source b.name = spill b.family source' b'.name) ∧
    (CodePoint.char '\n' ∉ b.name.points → '\n' ∉ source.toList →
      CodePoint.char '\n' ∉ b'.name.points → '\n' ∉ source'.toList →
      uncommented u.render.points = uncommented u'.render.points) := by
  have hcompiled := generate_eq_ok_iff.1 h
  -- The other unit is this one with other names, so they have the same code.
  have hrenamed := generate_rename h b'.name source'
  rw [← hsame, h', Except.ok.injEq] at hrenamed
  have hcode : u'.code = u.code := by
    rw [hrenamed]
    rfl
  have hfamily : u'.family = u.family := by rw [hrenamed]
  have hname : u'.boardName = b'.name := by rw [hrenamed]
  have hsource : u'.source = source' := by rw [hrenamed]
  have hiff : uncommented u.render.points = uncommented u'.render.points ↔
      spill b.family source b.name = spill b.family source' b'.name := by
    rw [uncommented_render, uncommented_render, hcode, List.append_left_inj, hfamily, hname,
      hsource, hcompiled.family_eq, hcompiled.name_eq, hcompiled.source_eq]
  refine ⟨hiff, fun hb hs hb' hs' => hiff.2 ?_⟩
  rw [spill_eq_nil hs hb, spill_eq_nil hs' hb']

/-- A board with one key. -/
def button : Board where
  name := "button"
  chip := "STM32F411CE"
  family := .stm32
  keys := ⟨.matrix [.text "PA0"] [.text "PA1"], false, true⟩
  bus := .none

/-- Another name on one line, and a file, leave the code as it is. -/
theorem uncommented_eq_button :
    ∃ u u', button.generate "" = .ok u ∧
      ({ button with name := "knob" } : Board).generate "knob.yaml" = .ok u' ∧
      uncommented u.render.points = uncommented u'.render.points := by
  obtain ⟨u, hu⟩ := exists_unit (b := button) (by decide) rfl ""
  have hu' := generate_rename hu "knob" "knob.yaml"
  exact ⟨u, _, hu, hu', (uncommented_eq_iff hu hu' rfl).2 (by decide) (by decide) (by decide)
    (by decide)⟩

/-- The same board with a name of two lines. -/
def splitButton : Board := { button with name := "x\nlet y = 1;" }

/-- The second line of the name is code. -/
theorem uncommented_ne_splitButton :
    ∃ u u', button.generate "" = .ok u ∧ splitButton.generate "" = .ok u' ∧
      splitButton = { button with name := splitButton.name } ∧
      uncommented u.render.points ≠ uncommented u'.render.points := by
  obtain ⟨u, hu⟩ := exists_unit (b := button) (by decide) rfl ""
  have hu' := generate_rename hu "x\nlet y = 1;" ""
  have hcompiled := generate_eq_ok_iff.1 hu
  refine ⟨u, _, hu, hu', rfl, fun heq => ?_⟩
  rw [uncommented_render, uncommented_render] at heq
  have hspill : spill .stm32 "" "button" = spill .stm32 "" "x\nlet y = 1;" := by
    have hcancel := (List.append_left_inj _).1 heq
    rwa [hcompiled.family_eq, hcompiled.name_eq, hcompiled.source_eq] at hcancel
  exact absurd hspill (by decide)

end Board

end BoardWiring
