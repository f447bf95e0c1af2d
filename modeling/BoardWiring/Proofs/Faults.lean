import BoardWiring.Failure
import BoardWiring.Proofs.Outcome

/-!
# Faults of steps

What the faults of a chain of steps, and of a step for every entry of a list, have in common with
the faults of the steps themselves.

* `Outcome.FailsOnly` says that all faults of a step are of a kind; `Outcome.failsOnly_bind_iff`
  and its neighbours take a chain apart, and leave a condition on each fault in it;
* `Outcome.mapM_eq_error_iff` and `Layout.read_eq_error_iff` say that a step for every entry fails
  with the fault of the first entry that has one.
-/

namespace BoardWiring

namespace Outcome

variable {α β δ ε : Type} {P Q : ε → Prop}

/-- Every fault that a step can have is of a kind. -/
def FailsOnly (P : ε → Prop) (x : Except ε α) : Prop := ∀ e, x = .error e → P e

@[simp] theorem failsOnly_ok (a : α) : FailsOnly P (.ok a : Except ε α) := by
  intro e h
  cases h

@[simp] theorem failsOnly_error_iff {e : ε} : FailsOnly P (.error e : Except ε α) ↔ P e := by
  constructor
  · intro h
    exact h e rfl
  · rintro h d hd
    cases hd
    exact h

@[simp] theorem failsOnly_bind_iff {x : Except ε α} {f : α → Except ε β} :
    FailsOnly P (x >>= f) ↔ FailsOnly P x ∧ ∀ a, x = .ok a → FailsOnly P (f a) := by
  cases x with
  | ok a => simp
  | error e => simp

@[simp] theorem failsOnly_ite_iff {c : Prop} [Decidable c] {x y : Except ε α} :
    FailsOnly P (if c then x else y) ↔ (c → FailsOnly P x) ∧ (¬c → FailsOnly P y) := by
  by_cases hc : c
  · simp [hc]
  · simp [hc]

theorem FailsOnly.imp {x : Except ε α} (h : FailsOnly P x) (hPQ : ∀ e, P e → Q e) :
    FailsOnly Q x := fun e he => hPQ e (h e he)

theorem failsOnly_mapM {f : α → Except ε β} {xs : List α} (h : ∀ x ∈ xs, FailsOnly P (f x)) :
    FailsOnly P (xs.mapM f) := by
  induction xs with
  | nil => exact failsOnly_ok []
  | cons x xs ih =>
    have hx : FailsOnly P (f x) := h x List.mem_cons_self
    have hxs : FailsOnly P (xs.mapM f) := ih fun y hy => h y (List.mem_cons_of_mem _ hy)
    simp [List.mapM_cons, hx, hxs]

@[simp] theorem failsOnly_ofConfig_iff {P : Failure → Prop} {x : Except ConfigError α} :
    FailsOnly P (Failure.ofConfig x) ↔ FailsOnly (fun e => P (.config e)) x := by
  cases x with
  | ok a => simp [Failure.ofConfig]
  | error e => simp [Failure.ofConfig]

@[simp] theorem failsOnly_ofFault?_iff {fault : Option ε} {a : α} :
    FailsOnly P (ofFault? fault a) ↔ ∀ e, fault = some e → P e := by
  cases fault with
  | none => simp
  | some e => simp

theorem ofFault?_eq_ok_iff {fault : Option ε} {a b : α} :
    ofFault? fault a = .ok b ↔ fault = none ∧ a = b := by
  cases fault with
  | none => simp
  | some e => simp

/-! ### First faults -/

/-- A step for every entry of a list fails with the fault of the first entry that has one. -/
theorem mapM_eq_error_iff {f : α → Except ε β} {xs : List α} {e : ε} :
    xs.mapM f = .error e ↔ ∃ before x after, xs = before ++ x :: after ∧
      (∀ y ∈ before, ∃ b, f y = .ok b) ∧ f x = .error e := by
  constructor
  · intro h
    induction xs with
    | nil => cases h
    | cons x xs ih =>
      rw [List.mapM_cons] at h
      cases hx : f x with
      | error d =>
        rw [hx, error_bind] at h
        cases h
        exact ⟨[], x, xs, rfl, by simp, hx⟩
      | ok b =>
        rw [hx, ok_bind] at h
        cases hxs : xs.mapM f with
        | ok bs => simp [hxs] at h
        | error d =>
          simp only [hxs, error_bind, Except.error.injEq] at h
          subst h
          obtain ⟨before, y, after, rfl, hbefore, hy⟩ := ih hxs
          exact ⟨x :: before, y, after, rfl, List.forall_mem_cons.2 ⟨⟨b, hx⟩, hbefore⟩, hy⟩
  · rintro ⟨before, x, after, rfl, hbefore, hx⟩
    induction before with
    | nil => simp [List.mapM_cons, hx]
    | cons y before ih =>
      obtain ⟨⟨b, hy⟩, hbefore⟩ := List.forall_mem_cons.1 hbefore
      simp [List.mapM_cons, hy, ih hbefore]

theorem bind_eq_error_iff {x : Except ε α} {f : α → Except ε β} {e : ε} :
    (x >>= f) = .error e ↔ x = .error e ∨ ∃ a, x = .ok a ∧ f a = .error e := by
  cases x with
  | ok a => simp
  | error d => simp

theorem bind_pure_eq_error_iff {x : Except ε α} {f : α → β} {e : ε} :
    (x >>= fun a => pure (f a)) = .error e ↔ x = .error e := by
  simp [bind_eq_error_iff]

/-- A step for every entry of the rows of a table fails as one for every entry of them all. -/
theorem mapM_mapM_eq_error_iff {f : α → Except ε β} {rows : List (List α)} {e : ε} :
    (rows.mapM fun row => row.mapM f) = .error e ↔ rows.flatten.mapM f = .error e := by
  induction rows with
  | nil => simp
  | cons row rows ih =>
    rw [List.flatten_cons, List.mapM_append, List.mapM_cons]
    cases hrow : row.mapM f with
    | error d => simp
    | ok bs => simp only [ok_bind, bind_pure_eq_error_iff, ih]

end Outcome

namespace Layout

open Outcome

variable {α β ε : Type} {f : α → Except ε β} {l : Layout α} {e : ε}

/-- A layout is read up to the first entry that has a fault. -/
theorem read_eq_error_iff :
    l.read f = .error e ↔ ∃ before x after, l.toList = before ++ x :: after ∧
      (∀ y ∈ before, ∃ b, f y = .ok b) ∧ f x = .error e := by
  rw [← mapM_eq_error_iff]
  cases l with
  | matrix rows cols =>
    rw [read, toList, List.mapM_append]
    cases hrows : rows.mapM f with
    | error d => simp
    | ok bs => simp only [ok_bind, bind_pure_eq_error_iff]
  | grid rows =>
    rw [read, toList, bind_pure_eq_error_iff, mapM_mapM_eq_error_iff]

theorem failsOnly_read {P : ε → Prop} (h : ∀ x ∈ l.toList, FailsOnly P (f x)) :
    FailsOnly P (l.read f) := by
  intro e he
  obtain ⟨before, x, after, hl, -, hx⟩ := read_eq_error_iff.1 he
  exact h x (by simp [hl]) e hx

end Layout

end BoardWiring
