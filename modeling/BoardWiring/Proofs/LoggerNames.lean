import BoardWiring.Log.Registry
import Mathlib.Data.List.Basic

/-!
# The names of loggers

A logger's name is made of parts with dots between them, and the loggers above it have the names
that its first parts make.

* `Registry.dotted` is the name that parts make, and `Registry.lineage` are the names from a
  logger up to the topmost one;
* `Registry.ancestors_dotted` says that the names which are cut off a name at its dots are those
  that its first parts make;
* `Registry.ancestors_pairwise` says of every name that the ones that are cut off it become shorter
  and shorter.
-/

namespace BoardWiring

namespace Log

namespace Registry

variable {cs ds : List Char} {n m : Nat} {a name p : String} {parts ps : List String}

/-- A part of a logger's name: a text without a dot that is not empty. -/
def IsPart (s : String) : Prop := s ≠ "" ∧ '.' ∉ s.toList

instance : DecidablePred IsPart := fun _ => inferInstanceAs (Decidable (_ ∧ _))

/-- The name that parts make. -/
def dotted (parts : List String) : String := String.intercalate "." parts

/-- The name of a logger and those above it, without the topmost one, if its parts are given from
the last one on. -/
def upwards : List String → List String
  | [] => []
  | p :: ps => dotted (p :: ps).reverse :: upwards ps

/-- The names from a logger up to the topmost one.  A first part may be the name of the topmost
logger, which does not stand there twice. -/
def lineage (parts : List String) : List String :=
  (upwards parts.reverse).filter (fun n => !isRoot n) ++ [rootName]

/-! ### Cuts -/

theorem cuts_eq_nil (h : '.' ∉ cs) : cuts cs n = [] := by
  fun_induction cuts cs n with
  | case1 => rfl
  | case2 => rfl
  | case3 n hdot => exact absurd (List.mem_of_getElem? hdot) h
  | case4 n _ ih => exact ih

theorem lt_of_mem_cuts (h : m ∈ cuts cs n) : m < n := by
  fun_induction cuts cs n with
  | case1 => simp at h
  | case2 => simp at h
  | case3 n _ ih =>
    obtain rfl | hm := List.mem_cons.mp h
    · omega
    · have := ih hm
      omega
  | case4 n _ ih =>
    have := ih h
    omega

theorem cuts_pairwise (cs : List Char) (n : Nat) : (cuts cs n).Pairwise fun i j => j < i := by
  fun_induction cuts cs n with
  | case1 => exact .nil
  | case2 => exact .nil
  | case3 n _ ih =>
    refine .cons (fun j hj => ?_) ih
    have := lt_of_mem_cuts hj
    omega
  | case4 n _ ih => exact ih

theorem cuts_append (h : n ≤ cs.length) : cuts (cs ++ ds) n = cuts cs n := by
  fun_induction cuts cs n with
  | case1 => rfl
  | case2 => rfl
  | case3 n hdot ih => rw [cuts, List.getElem?_append_left (by omega), if_pos hdot, ih (by omega)]
  | case4 n hdot ih => rw [cuts, List.getElem?_append_left (by omega), if_neg hdot, ih (by omega)]

/-- No cut is made behind the last character, be it a dot or not. -/
theorem cuts_pred_length (h : cs.getLast? ≠ some '.') :
    cuts cs (cs.length - 1) = cuts cs cs.length := by
  rw [List.getLast?_eq_getElem?] at h
  match hn : cs.length with
  | 0 => rfl
  | 1 => rfl
  | n + 2 =>
    rw [hn] at h
    exact (if_neg h).symm

/-- If a text without dots follows a dot, the first cut from the right is made at this dot. -/
theorem cuts_behind_dot (hcs : cs ≠ []) (hds : '.' ∉ ds) {k : Nat} (hk : k ≤ ds.length) :
    cuts (cs ++ '.' :: ds) (cs.length + 1 + k) = cs.length :: cuts cs (cs.length - 1) := by
  have hpos : 0 < cs.length := List.length_pos_iff.mpr hcs
  induction k with
  | zero =>
    have hdot : (cs ++ '.' :: ds)[cs.length - 1 + 1]? = some '.' := by
      rw [Nat.sub_add_cancel hpos, List.getElem?_append_right (Nat.le_refl _), Nat.sub_self]
      rfl
    rw [show cs.length + 1 + 0 = cs.length - 1 + 2 by omega, cuts, if_pos hdot,
      Nat.sub_add_cancel hpos, cuts_append (by omega)]
  | succ k ih =>
    have hother : (cs ++ '.' :: ds)[cs.length + k + 1]? ≠ some '.' := by
      rw [List.getElem?_append_right (by omega),
        show cs.length + k + 1 - cs.length = k + 1 by omega, List.getElem?_cons_succ]
      exact fun h => hds (List.mem_of_getElem? h)
    rw [show cs.length + 1 + (k + 1) = (cs.length + k) + 2 by omega, cuts, if_neg hother,
      show cs.length + k + 1 = cs.length + 1 + k by omega]
    exact ih (by omega)

/-! ### The names above a name -/

theorem mem_ancestors (h : a ∈ ancestors name) :
    a.toList <+: name.toList ∧ a.toList.length < name.toList.length := by
  obtain ⟨n, hn, rfl⟩ := List.mem_map.mp h
  have := lt_of_mem_cuts hn
  rw [String.toList_ofList, List.length_take]
  exact ⟨List.take_prefix _ _, by omega⟩

theorem self_notMem_ancestors (name : String) : name ∉ ancestors name := fun h =>
  absurd (mem_ancestors h).2 (Nat.lt_irrefl _)

theorem ancestors_pairwise (name : String) :
    (ancestors name).Pairwise fun a b => b.toList.length < a.toList.length := by
  rw [ancestors, List.pairwise_map]
  refine (cuts_pairwise _ _).imp_of_mem fun {i j} hi _ hij => ?_
  have := lt_of_mem_cuts hi
  simp only [String.toList_ofList, List.length_take]
  omega

theorem ancestors_of_part (h : IsPart p) : ancestors p = [] := by
  rw [ancestors, cuts_eq_nil h.2]
  rfl

/-- Above a name with one more part stand the name without it and those above that one. -/
theorem ancestors_append (hname : name ≠ "") (hlast : name.toList.getLast? ≠ some '.')
    (hp : IsPart p) : ancestors (name ++ "." ++ p) = name :: ancestors name := by
  have hchars : (name ++ "." ++ p).toList = name.toList ++ '.' :: p.toList := by simp
  have hcuts : cuts (name.toList ++ '.' :: p.toList) (name.toList ++ '.' :: p.toList).length =
      name.toList.length :: cuts name.toList name.toList.length := by
    have hne : name.toList ≠ [] := by simpa using hname
    rw [← cuts_pred_length hlast, ← cuts_behind_dot hne hp.2 (Nat.le_refl _), List.length_append,
      List.length_cons, Nat.add_right_comm, Nat.add_assoc]
  rw [ancestors, hchars]
  simp only [hcuts, List.map_cons, List.take_left, String.ofList_toList]
  rw [ancestors]
  congr 1
  refine List.map_congr_left fun n hn => ?_
  rw [List.take_append_of_le_length (Nat.le_of_lt (lt_of_mem_cuts hn))]

/-! ### Dotted names -/

theorem dotted_singleton (p : String) : dotted [p] = p := by
  rw [← String.toList_inj, dotted, String.toList_intercalate]
  simp

theorem dotted_concat (h : ps ≠ []) (p : String) :
    dotted (ps ++ [p]) = dotted ps ++ "." ++ p := by
  rw [← String.toList_inj]
  simp only [dotted, String.toList_intercalate, String.toList_append]
  induction ps with
  | nil => exact absurd rfl h
  | cons q ps ih =>
    cases ps with
    | nil => simp
    | cons r ps => simpa using ih (List.cons_ne_nil r ps)

/-- A part does not end with a dot, so a name that ends with it does not. -/
theorem getLast?_append_part (hp : IsPart p) (cs : List Char) :
    (cs ++ p.toList).getLast? ≠ some '.' := by
  have hne : p.toList ≠ [] := by simpa using hp.1
  rw [List.getLast?_append_of_ne_nil _ hne]
  exact fun h => hp.2 (List.mem_of_getLast? h)

theorem dotted_ends (hp : IsPart p) (ps : List String) :
    dotted (ps ++ [p]) ≠ "" ∧ (dotted (ps ++ [p])).toList.getLast? ≠ some '.' := by
  by_cases hps : ps = []
  · subst hps
    rw [List.nil_append, dotted_singleton]
    exact ⟨hp.1, getLast?_append_part hp []⟩
  · rw [dotted_concat hps, String.toList_append]
    refine ⟨fun h => hp.1 ?_, getLast?_append_part hp _⟩
    exact (String.append_eq_empty_iff.mp h).2

/-- The names that are cut off a dotted name are those that its first parts make. -/
theorem ancestors_dotted (h : ∀ q ∈ p :: ps, IsPart q) :
    ancestors (dotted (p :: ps).reverse) = upwards ps := by
  induction ps generalizing p with
  | nil => rw [List.reverse_singleton, dotted_singleton, ancestors_of_part (h p (by simp)), upwards]
  | cons q ps ih =>
    have hrest : ∀ x ∈ q :: ps, IsPart x := fun x hx => h x (List.mem_cons_of_mem p hx)
    obtain ⟨hne, hlast⟩ := dotted_ends (hrest q List.mem_cons_self) ps.reverse
    rw [← List.reverse_cons] at hne hlast
    rw [List.reverse_cons, dotted_concat (by simp), ancestors_append hne hlast (h p (by simp)),
      ih hrest, upwards]

theorem upwards_nodup (h : ∀ p ∈ ps, IsPart p) : (upwards ps).Nodup := by
  cases ps with
  | nil => exact .nil
  | cons p ps =>
    rw [upwards, ← ancestors_dotted h]
    refine List.nodup_cons.mpr ⟨self_notMem_ancestors _, ?_⟩
    exact (ancestors_pairwise _).imp fun hlt heq => by simp [heq] at hlt

theorem upwards_of_isRoot (h : ∀ q ∈ p :: ps, IsPart q)
    (hroot : isRoot (dotted (p :: ps).reverse) = true) :
    upwards (p :: ps) = [dotted (p :: ps).reverse] := by
  have hne := (dotted_ends (h p List.mem_cons_self) ps.reverse).1
  rw [← List.reverse_cons] at hne
  have hname : dotted (p :: ps).reverse = rootName := by
    rw [isRoot, Bool.or_eq_true, beq_iff_eq, beq_iff_eq] at hroot
    exact hroot.resolve_left hne
  rw [upwards, ← ancestors_dotted h, hname, ancestors_of_part (by decide)]

end Registry

end Log

end BoardWiring
