import BoardWiring.Fragment
import Mathlib.Tactic.Common

/-!
# Sums of fragments

The statements of a unit are summed up from fragments, one after the other or run by run.  How the
brackets of a sum stand does not matter, and nothing of its parts is lost in it.

* `Fragment.lines_concat` and the lemmas beside it say what the sum of a list of fragments carries;
* `Fragment.render_concat` says that its text is that of the parts with lines, one below the other,
  and `Fragment.check_concat` that it is stopped by the error that stops its parts;
* `Fragment.Bracketing` are the ways of putting a sum together,
  `Fragment.Bracketing.total_eq_concat` says that all come to the same, and
  `Fragment.sum_loses_nothing` collects what is kept.
-/

namespace BoardWiring

/-- Runs of lines are joined by joining what each of them is joined to; a run without lines is left
out. -/
theorem Text.intercalate_flatMap {α : Type} (sep : String) (lines : α → List String)
    (xs : List α) :
    String.intercalate sep (xs.flatMap lines) =
      String.intercalate sep ((xs.filter fun x => !(lines x).isEmpty).map fun x =>
        String.intercalate sep (lines x)) := by
  induction xs with
  | nil => rfl
  | cons x xs ih =>
    rw [List.flatMap_cons]
    by_cases hx : lines x = []
    · rw [List.filter_cons_of_neg (by simp [hx]), hx, List.nil_append, ih]
    · rw [List.filter_cons_of_pos (by simpa using hx), List.map_cons]
      by_cases hxs : xs.flatMap lines = []
      · -- No other run has a line, so no separator follows this one.
        have hnone : (xs.filter fun x => !(lines x).isEmpty) = [] := by
          rw [List.filter_eq_nil_iff]
          intro y hy
          simp [List.flatMap_eq_nil_iff.1 hxs y hy]
        rw [hxs, hnone, List.append_nil, List.map_nil, String.intercalate_singleton]
      · have hsome : ((xs.filter fun x => !(lines x).isEmpty).map fun x =>
            String.intercalate sep (lines x)) ≠ [] := by
          intro hnil
          rw [List.map_eq_nil_iff, List.filter_eq_nil_iff] at hnil
          exact hxs (List.flatMap_eq_nil_iff.2 fun y hy => by simpa using hnil y hy)
        rw [String.intercalate_append_of_ne_nil hx hxs, String.intercalate_cons_of_ne_nil hsome, ih]

namespace Fragment

/-! ### Sums of lists -/

theorem concat_cons (f : Fragment) (fs : List Fragment) : concat (f :: fs) = f ++ concat fs := rfl

theorem concat_append (fs gs : List Fragment) : concat (fs ++ gs) = concat fs ++ concat gs := by
  induction fs with
  | nil => exact (empty_append _).symm
  | cons f fs ih => rw [List.cons_append, concat_cons, concat_cons, ih, append_assoc]

theorem lines_concat (fs : List Fragment) : (concat fs).lines = fs.flatMap lines := by
  induction fs with
  | nil => rfl
  | cons f fs ih => rw [concat_cons, lines_append, ih, List.flatMap_cons]

theorem bindings_concat (fs : List Fragment) : (concat fs).bindings = fs.flatMap bindings := by
  induction fs with
  | nil => rfl
  | cons f fs ih => rw [concat_cons, bindings_append, ih, List.flatMap_cons]

@[simp] theorem diagnostics_concat (fs : List Fragment) :
    (concat fs).diagnostics = fs.flatMap diagnostics := by
  induction fs with
  | nil => rfl
  | cons f fs ih => rw [concat_cons, diagnostics_append, ih, List.flatMap_cons]

theorem unsupported_concat (fs : List Fragment) :
    (concat fs).unsupported = fs.any unsupported := by
  induction fs with
  | nil => rfl
  | cons f fs ih => rw [concat_cons, unsupported_append, ih, List.any_cons]

theorem isEmpty_concat (fs : List Fragment) : (concat fs).isEmpty = fs.all isEmpty := by
  rw [Bool.eq_iff_iff, isEmpty, lines_concat, List.isEmpty_iff, List.flatMap_eq_nil_iff,
    List.all_eq_true]
  simp only [isEmpty, List.isEmpty_iff]

/-- **The text of a sum is that of its parts that have lines, one below the other.** -/
theorem render_concat (indent : String) (fs : List Fragment) :
    (concat fs).render indent =
      String.intercalate "\n" ((fs.filter fun f => !f.isEmpty).map (render indent)) := by
  have hruns := Text.intercalate_flatMap "\n" (fun f => f.lines.map (indented indent)) fs
  simp only [List.isEmpty_map] at hruns
  rw [render, lines_concat, List.map_flatMap, hruns]
  rfl

/-- A sum carries first the error that its parts carry first. -/
theorem firstDiagnostic?_concat (fs : List Fragment) :
    firstDiagnostic? [concat fs] = firstDiagnostic? fs := by
  rw [firstDiagnostic?, List.findSome?_singleton, diagnostics_concat, List.head?_flatMap]
  rfl

theorem check_concat (fs : List Fragment) : check [concat fs] = check fs := by
  rw [check, firstDiagnostic?_concat]
  rfl

/-- The error that stops fragments is the first of the first fragment that carries one. -/
theorem check_eq_error_iff {fs : List Fragment} {e : ConfigError} :
    check fs = .error e ↔ ∃ before f after, fs = before ++ f :: after ∧
      (∀ g ∈ before, g.diagnostics = []) ∧ f.diagnostics.head? = some e := by
  have hcheck : check fs = .error e ↔ firstDiagnostic? fs = some e := by
    unfold check
    cases firstDiagnostic? fs <;> simp
  rw [hcheck, firstDiagnostic?, List.findSome?_eq_some_iff]
  simp only [List.head?_eq_none_iff, and_comm]

/-! ### Brackets -/

/-- A way of putting a sum together: from single fragments, from sums, and from the empty fragment
wherever it is put in. -/
inductive Bracketing where
  | nothing
  | part (f : Fragment)
  | sum (left right : Bracketing)

namespace Bracketing

/-- The fragments that are summed up, from left to right. -/
def parts : Bracketing → List Fragment
  | nothing => []
  | part f => [f]
  | sum left right => left.parts ++ right.parts

/-- What a sum comes to. -/
def total : Bracketing → Fragment
  | nothing => empty
  | part f => f
  | sum left right => left.total ++ right.total

/-- **However a sum is put together, it comes to the sum of the list of its parts.** -/
theorem total_eq_concat (s : Bracketing) : s.total = concat s.parts := by
  induction s with
  | nothing => rfl
  | part f => exact (append_empty f).symm
  | sum left right ihleft ihright => rw [total, parts, ihleft, ihright, concat_append]

end Bracketing

/-- **Summing fragments loses nothing.**  Whatever the brackets of a sum, and wherever the empty
fragment is put in, the sum is that of the list of its parts.  With every indent its text is made
of the texts of exactly those parts that have lines.  It is stopped if and only if its parts are,
and then by the same error, the first of the first part that carries one.  It has no lines if and
only if no part has, and it stands for a missing feature if and only if some part does. -/
theorem sum_loses_nothing (s : Bracketing) :
    s.total = concat s.parts ∧
      (∀ indent, s.total.render indent =
        String.intercalate "\n" ((s.parts.filter fun f => !f.isEmpty).map (render indent))) ∧
      check [s.total] = check s.parts ∧
      (∀ e, check s.parts = .error e ↔ ∃ before f after, s.parts = before ++ f :: after ∧
        (∀ g ∈ before, g.diagnostics = []) ∧ f.diagnostics.head? = some e) ∧
      (s.total.isEmpty = true ↔ ∀ f ∈ s.parts, f.isEmpty = true) ∧
      (s.total.unsupported = true ↔ ∃ f ∈ s.parts, f.unsupported = true) := by
  rw [s.total_eq_concat]
  refine ⟨rfl, fun indent => render_concat indent s.parts, check_concat s.parts,
    fun e => check_eq_error_iff, ?_, ?_⟩
  · rw [isEmpty_concat, List.all_eq_true]
  · rw [unsupported_concat, List.any_eq_true]

/-- A part without lines adds no line feed, but an empty line does, and it is not indented. -/
example : (Bracketing.sum (.part (ofLines ["a", ""] [])) (.sum .nothing
    (.sum (.part (ofLines [] [])) (.part (ofLines ["b"] []))))).total.render "  " =
      "  a\n\n  b" := by
  decide

end Fragment

end BoardWiring
