import BoardWiring.Emit.Layout
import Mathlib.Tactic.Common

/-!
# Pins used a second time

The search for a repeated pin runs through the list once and keeps the pins that it has met.

* `Emit.firstRepeat?_eq_find?` says which pin it finds: the one at the first position that holds a
  pin which stands at an earlier position too;
* `Emit.firstRepeat?_eq_none_iff` says that it finds none if and only if the pins of the list,
  absent ones aside, are pairwise different, and `Emit.firstRepeat?_of_sublist` that this is
  handed on to sublists.
-/

namespace BoardWiring

namespace Emit

/-- The pin at a position of a list is there, and stands at an earlier position too. -/
def isRepeat (ps : List Pin) (q : Pin × Nat) : Bool :=
  decide (q.1 ≠ .absent) && decide (q.1 ∈ ps.take q.2)

/-- What the search gives after the pins `before`, if it has kept those of them that are there. -/
theorem firstRepeatAfter?_eq_find? {seen before ps : List Pin}
    (hseen : ∀ p, p ≠ .absent → (p ∈ seen ↔ p ∈ before)) :
    firstRepeatAfter? seen ps =
      ((ps.zipIdx before.length).find? (isRepeat (before ++ ps))).map Prod.fst := by
  induction ps generalizing seen before with
  | nil => rfl
  | cons p ps ih =>
    have htake : (before ++ p :: ps).take before.length = before := by simp
    have hstep : ∀ seen', (∀ q, q ≠ .absent → (q ∈ seen' ↔ q ∈ before ++ [p])) →
        firstRepeatAfter? seen' ps = ((ps.zipIdx (before.length + 1)).find?
          (isRepeat (before ++ p :: ps))).map Prod.fst := by
      intro seen' h
      simpa using ih h
    rw [List.zipIdx_cons]
    by_cases hp : p = .absent
    · subst hp
      rw [List.find?_cons_of_neg (by simp [isRepeat])]
      refine hstep seen fun q hq => ?_
      simp [hseen q hq, hq]
    · have hloop : firstRepeatAfter? seen (p :: ps) =
          if p ∈ seen then some p else firstRepeatAfter? (p :: seen) ps := by
        cases p with
        | absent => exact absurd rfl hp
        | mcu name number => rfl
        | expander e => rfl
      rw [hloop]
      by_cases hmem : p ∈ seen
      · rw [List.find?_cons_of_pos (by simp [isRepeat, hp, htake, (hseen p hp).1 hmem])]
        simp [hmem]
      · have hbefore : p ∉ before := fun h => hmem ((hseen p hp).2 h)
        rw [List.find?_cons_of_neg (by simp [isRepeat, htake, hbefore]), if_neg hmem]
        refine hstep (p :: seen) fun q hq => ?_
        simp [hseen q hq, or_comm]

/-- **The search finds the pin at the first position whose pin stands at an earlier one too.** -/
theorem firstRepeat?_eq_find? (ps : List Pin) :
    firstRepeat? ps = (ps.zipIdx.find? (isRepeat ps)).map Prod.fst :=
  @firstRepeatAfter?_eq_find? [] [] ps fun _ _ => Iff.rfl

theorem firstRepeatAfter?_eq_none_iff {seen ps : List Pin} :
    firstRepeatAfter? seen ps = none ↔
      (ps.filter (· ≠ .absent)).Nodup ∧ ∀ p ∈ ps, p ≠ .absent → p ∉ seen := by
  fun_induction firstRepeatAfter? seen ps with
  | case1 seen => simp
  | case2 seen ps ih => simp [ih]
  | case3 seen p ps hp hmem =>
    simp only [reduceCtorEq, false_iff, not_and]
    intro _ hout
    exact hout p List.mem_cons_self (fun h => hp h) hmem
  | case4 seen p ps hp hmem ih =>
    have hfilter : (p :: ps).filter (· ≠ .absent) = p :: ps.filter (· ≠ .absent) :=
      List.filter_cons_of_pos (by simpa using hp)
    rw [ih, hfilter, List.nodup_cons]
    simp only [List.mem_cons, List.mem_filter, decide_eq_true_eq, forall_eq_or_imp]
    constructor
    · rintro ⟨hnodup, hout⟩
      refine ⟨⟨fun h => ?_, hnodup⟩, fun _ => hmem, fun q hq hne hseen => ?_⟩
      · exact hout p h.1 h.2 (Or.inl rfl)
      · exact hout q hq hne (Or.inr hseen)
    · rintro ⟨⟨hnot, hnodup⟩, -, hout⟩
      refine ⟨hnodup, fun q hq hne h => ?_⟩
      rcases h with rfl | h
      · exact hnot ⟨hq, hne⟩
      · exact hout q hq hne h

theorem firstRepeat?_eq_none_iff {ps : List Pin} :
    firstRepeat? ps = none ↔ (ps.filter (· ≠ .absent)).Nodup := by
  simp [firstRepeat?, firstRepeatAfter?_eq_none_iff]

theorem firstRepeat?_of_sublist {ps qs : List Pin} (hsub : qs.Sublist ps)
    (h : firstRepeat? ps = none) : firstRepeat? qs = none :=
  firstRepeat?_eq_none_iff.2 ((firstRepeat?_eq_none_iff.1 h).sublist (hsub.filter _))

end Emit

end BoardWiring
