import BoardWiring.Emit.Layout
import Mathlib.Tactic.Common

/-!
# Steps that may fail

Facts about `Except` on which the theory of the compiler rests: how a chain of steps and a step
for every entry of a list or of a layout come to a result or to the first fault.

* `Outcome.bind_eq_ok_iff` takes a chain apart;
* `Outcome.ofFault?` is a step whose fault is known beforehand, and `Outcome.ofFault?_or` says how
  such steps make a chain;
* `Outcome.mapM_eq_ofFault?` and `Outcome.mapM_eq_ok` say what a step for every entry of a list
  gives, and `Outcome.mapM_ok` that it has been made for each;
* `Layout.read_eq_ok` and `Layout.read_ok` say the same of layouts.
-/

namespace BoardWiring

namespace Outcome

variable {α β ε : Type}

/-- The fault of a step that fails. -/
def fault? : Except ε α → Option ε
  | .ok _ => none
  | .error e => some e

theorem fault?_eq_some_iff {x : Except ε α} {e : ε} : fault? x = some e ↔ x = .error e := by
  cases x <;> simp [fault?]

@[simp] theorem ok_bind (a : α) (f : α → Except ε β) : (Except.ok a >>= f) = f a := rfl

@[simp] theorem error_bind (e : ε) (f : α → Except ε β) : (Except.error e >>= f) = .error e := rfl

@[simp] theorem pure_eq_ok (a : α) : (pure a : Except ε α) = .ok a := rfl

theorem bind_eq_ok_iff {x : Except ε α} {f : α → Except ε β} {b : β} :
    (x >>= f) = .ok b ↔ ∃ a, x = .ok a ∧ f a = .ok b := by
  cases x with
  | ok a => simp
  | error e => simp

/-! ### Steps whose faults are known -/

/-- The step that has a fault, if there is one, and gives a result otherwise. -/
def ofFault? (fault : Option ε) (a : α) : Except ε α :=
  match fault with
  | some e => .error e
  | none => .ok a

@[simp] theorem ofFault?_none (a : α) : ofFault? (none : Option ε) a = .ok a := rfl

@[simp] theorem ofFault?_some (e : ε) (a : α) : ofFault? (some e) a = .error e := rfl

/-- A chain of two steps has the fault of the first before that of the second. -/
theorem ofFault?_or (x y : Option ε) (a : α) (b : β) :
    ofFault? (x.or y) b = ofFault? x a >>= fun _ => ofFault? y b := by
  cases x <;> rfl

/-! ### Lists -/

/-- A step for every entry of a list has the fault of the first entry with one. -/
theorem mapM_eq_ofFault? {f : α → Except ε β} {fault? : α → Option ε} {g : α → β} {xs : List α}
    (h : ∀ x ∈ xs, f x = ofFault? (fault? x) (g x)) :
    xs.mapM f = ofFault? (xs.findSome? fault?) (xs.map g) := by
  induction xs with
  | nil => rfl
  | cons x xs ih =>
    have hx : f x = ofFault? (fault? x) (g x) := h x List.mem_cons_self
    have hxs := ih fun y hy => h y (List.mem_cons_of_mem _ hy)
    rw [List.mapM_cons, hx, hxs, List.findSome?_cons]
    cases fault? x with
    | some e => rfl
    | none => cases xs.findSome? fault? <;> rfl

theorem mapM_eq_ok {f : α → Except ε β} {g : α → β} {xs : List α}
    (h : ∀ x ∈ xs, f x = .ok (g x)) : xs.mapM f = .ok (xs.map g) := by
  have hnone : xs.findSome? (fun _ => (none : Option ε)) = none :=
    List.findSome?_eq_none_iff.2 fun _ _ => rfl
  rw [@mapM_eq_ofFault? α β ε f (fun _ => none) g xs h, hnone, ofFault?_none]

theorem mapM_ok {f : α → Except ε β} {xs : List α} {ys : List β} (h : xs.mapM f = .ok ys) :
    ∀ x ∈ xs, ∃ y, f x = .ok y := by
  induction xs generalizing ys with
  | nil => simp
  | cons x xs ih =>
    simp only [List.mapM_cons, bind_eq_ok_iff] at h
    obtain ⟨y, hy, zs, hzs, -⟩ := h
    intro a ha
    rcases List.mem_cons.1 ha with rfl | ha
    · exact ⟨y, hy⟩
    · exact ih hzs a ha

end Outcome

namespace Layout

open Outcome

variable {α β ε : Type}

/-- The layout with a function applied to each entry. -/
def map (g : α → β) : Layout α → Layout β
  | .matrix rows cols => .matrix (rows.map g) (cols.map g)
  | .grid rows => .grid (rows.map fun row => row.map g)

/-- The entries of a layout that become inputs: the rows of a matrix, all of a grid. -/
def inputs : Layout α → List α
  | .matrix rows _ => rows
  | .grid rows => rows.flatten

@[simp] theorem toList_map (g : α → β) (l : Layout α) : (l.map g).toList = l.toList.map g := by
  cases l with
  | matrix rows cols => simp [map, toList]
  | grid rows => simp [map, toList, List.map_flatten]

@[simp] theorem isGrid_map (g : α → β) (l : Layout α) : (l.map g).isGrid = l.isGrid := by
  cases l <;> rfl

theorem mem_toList_of_mem_inputs {l : Layout α} {x : α} (h : x ∈ l.inputs) : x ∈ l.toList := by
  cases l with
  | matrix rows cols => exact List.mem_append_left _ h
  | grid rows => exact h

theorem read_eq_ok {f : α → Except ε β} {g : α → β} {l : Layout α}
    (h : ∀ x ∈ l.toList, f x = .ok (g x)) : l.read f = .ok (l.map g) := by
  cases l with
  | matrix rows cols =>
    have hr : rows.mapM f = .ok (rows.map g) :=
      mapM_eq_ok fun x hx => h x (List.mem_append_left _ hx)
    have hc : cols.mapM f = .ok (cols.map g) :=
      mapM_eq_ok fun x hx => h x (List.mem_append_right _ hx)
    simp [read, map, hr, hc]
  | grid rows =>
    have hr : (rows.mapM fun row => row.mapM f) = .ok (rows.map fun row => row.map g) :=
      mapM_eq_ok fun row hrow => mapM_eq_ok fun x hx => h x (List.mem_flatten_of_mem hrow hx)
    simp [read, map, hr]

theorem read_ok {f : α → Except ε β} {l : Layout α} {m : Layout β} (h : l.read f = .ok m) :
    ∀ x ∈ l.toList, ∃ y, f x = .ok y := by
  cases l with
  | matrix rows cols =>
    obtain ⟨rs, hrows, h⟩ := bind_eq_ok_iff.1 h
    obtain ⟨cs, hcols, -⟩ := bind_eq_ok_iff.1 h
    intro x hx
    rcases List.mem_append.1 hx with hx | hx
    · exact mapM_ok hrows x hx
    · exact mapM_ok hcols x hx
  | grid rows =>
    obtain ⟨rs, hrows, -⟩ := bind_eq_ok_iff.1 h
    intro x hx
    obtain ⟨row, hrow, hx⟩ := List.mem_flatten.1 hx
    obtain ⟨ys, hys⟩ := mapM_ok hrows row hrow
    exact mapM_ok hys x hx

end Layout

end BoardWiring
