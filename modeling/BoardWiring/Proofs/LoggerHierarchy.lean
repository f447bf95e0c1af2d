import BoardWiring.Proofs.LoggerNames
import Mathlib.Data.List.Find
import Mathlib.Data.List.Nodup
import Mathlib.Data.List.Perm.Subperm

/-!
# The hierarchy of loggers

A logger is to stand below the nearest logger above it that is known, whichever of the two was
known first.

* `Registry.find?_register` and `Registry.find?_enable` say what becomes of each logger when one is
  made known and when one is set up;
* `Registry.IsHierarchical` says that each logger stands where it is to stand, and
  `Registry.IsHierarchical.register` that this stays so, unless a logger is made known whose name
  the name of the topmost logger begins with;
* `Registry.copies_dotted` says how often a record is written, in terms of the levels and the
  handlers of the loggers on the way up, and `Registry.isForgotten_dotted` when the handler of last
  resort writes it.
-/

namespace BoardWiring

namespace Log

namespace Registry

variable {r : Registry} {l : Logger} {a b name : String} {level : Nat}
  {names ps parts : List String}

/-! ### Known loggers -/

theorem of_find? (h : r.find? name = some l) : l ∈ r.loggers ∧ l.name = name :=
  ⟨List.mem_of_find?_eq_some h, by simpa using List.find?_some h⟩

@[simp] theorem adopted_name (name : String) (l : Logger) : (adopted name l).name = l.name := by
  unfold adopted
  split <;> rfl

@[simp] theorem adopted_level (name : String) (l : Logger) : (adopted name l).level = l.level := by
  unfold adopted
  split <;> rfl

@[simp] theorem adopted_handlers (name : String) (l : Logger) :
    (adopted name l).handlers = l.handlers := by
  unfold adopted
  split <;> rfl

/-- The logger with a name is known, as the topmost one always is. -/
def IsKnown (r : Registry) (name : String) : Prop := isRoot name = true ∨ (r.find? name).isSome

theorem register_of_new (hroot : isRoot name = false) (hnew : r.find? name = none) :
    r.register name =
      { r with loggers := r.loggers.map (adopted name) ++ [⟨name, r.parentOf name, 0, 0⟩] } := by
  rw [register, if_neg (by simp [hroot, hnew])]

/-- A logger is made known only if it is not known. -/
theorem register_cases (r : Registry) (name : String) :
    (r.IsKnown name ∧ r.register name = r) ∨ isRoot name = false ∧ r.find? name = none := by
  by_cases h : r.IsKnown name
  · exact .inl ⟨h, if_pos (by simpa [IsKnown] using h)⟩
  · exact .inr (by simpa [IsKnown] using h)

theorem find?_register (hroot : isRoot name = false) (hnew : r.find? name = none) (a : String) :
    (r.register name).find? a =
      if a = name then some ⟨name, r.parentOf name, 0, 0⟩ else (r.find? a).map (adopted name) := by
  have hmap : (r.loggers.map (adopted name)).find? (·.name == a) =
      (r.find? a).map (adopted name) := by
    simp only [List.find?_map, Function.comp_def, adopted_name, find?]
  rw [register_of_new hroot hnew, find?, List.find?_append, hmap]
  by_cases ha : a = name
  · subst ha
    simp [hnew]
  · have hne : (name == a) = false := by simpa using Ne.symm ha
    simp [ha, hne]

theorem isKnown_register (r : Registry) (name : String) : (r.register name).IsKnown name := by
  obtain ⟨hknown, hsame⟩ | ⟨hroot, hnew⟩ := register_cases r name
  · rwa [hsame]
  · exact .inr (by simp [find?_register hroot hnew])

theorem isSome_find?_register (h : (r.find? a).isSome) (name : String) :
    ((r.register name).find? a).isSome := by
  obtain ⟨-, hsame⟩ | ⟨hroot, hnew⟩ := register_cases r name
  · rwa [hsame]
  · rw [find?_register hroot hnew]
    by_cases ha : a = name <;> simp [ha, h]

/-- A number that each logger has: `root` gives that of the topmost one, and `f` those of others. -/
def fieldOf (root : Registry → Nat) (f : Logger → Nat) (r : Registry) (name : String) : Nat :=
  if isRoot name then root r else ((r.find? name).map f).getD 0

/-- Making a logger known changes nothing about a logger except where it stands. -/
theorem fieldOf_register (root : Registry → Nat) {f : Logger → Nat}
    (hroot : ∀ loggers, root { r with loggers := loggers } = root r)
    (hf : ∀ l, f (adopted name l) = f l) (hnew : ∀ p, f ⟨name, p, 0, 0⟩ = 0) (a : String) :
    fieldOf root f (r.register name) a = fieldOf root f r a := by
  obtain ⟨-, hsame⟩ | ⟨hname, hnone⟩ := register_cases r name
  · rw [hsame]
  · have hsame : root (r.register name) = root r := by rw [register_of_new hname hnone, hroot]
    rw [fieldOf, fieldOf, hsame, find?_register hname hnone]
    by_cases ha : a = name
    · simp [ha, hnew, hnone]
    · simp [ha, Function.comp_def, hf]

theorem levelOf_register (r : Registry) (name a : String) :
    (r.register name).levelOf a = r.levelOf a :=
  fieldOf_register rootLevel (fun _ => rfl) (adopted_level name) (fun _ => rfl) a

theorem handlersOf_register (r : Registry) (name a : String) :
    (r.register name).handlersOf a = r.handlersOf a :=
  fieldOf_register rootHandlers (fun _ => rfl) (adopted_handlers name) (fun _ => rfl) a

theorem recordName_eq_iff (a name : String) :
    recordName a = recordName name ↔ if isRoot name then isRoot a = true else a = name := by
  unfold recordName
  by_cases hname : isRoot name = true <;> by_cases ha : isRoot a = true
  · simp [hname, ha]
  · have hne : a ≠ rootName := by
      rintro rfl
      exact ha rfl
    simp [hname, ha, hne]
  · have hne : a ≠ name := by
      rintro rfl
      exact hname ha
    have hroot : rootName ≠ name := by
      rintro rfl
      exact hname rfl
    simp [hname, ha, hne, hroot]
  · simp [hname, ha]

theorem find?_enable (hroot : isRoot name = false) (a : String) :
    (r.enable name level).find? a =
      if a = name then
        (r.find? a).map fun l => { l with level := level, handlers := handled l.handlers }
      else r.find? a := by
  have hmap : (r.enable name level).find? a = (r.find? a).map fun l =>
      if l.name = name then { l with level := level, handlers := handled l.handlers } else l := by
    rw [enable, if_neg (by simp [hroot]), find?, List.find?_map, find?]
    congr 2
    funext l
    simp only [Function.comp_def]
    split <;> rfl
  rw [hmap]
  cases hl : r.find? a with
  | none => simp
  | some l =>
    rw [← (of_find? hl).2]
    by_cases hname : l.name = name <;> simp [hname]

theorem isSome_find?_enable (r : Registry) (name : String) (level : Nat) (a : String) :
    ((r.enable name level).find? a).isSome = (r.find? a).isSome := by
  by_cases hroot : isRoot name = true
  · rw [enable, if_pos hroot]
    rfl
  · rw [find?_enable (by simpa using hroot)]
    by_cases ha : a = name <;> simp [ha]

/-- A set-up changes a number of its logger, by `g`, and of no other logger. -/
theorem fieldOf_enable (root : Registry → Nat) {f : Logger → Nat} {g : Nat → Nat}
    (hroot : root { r with rootLevel := level, rootHandlers := handled r.rootHandlers } =
      g (root r))
    (hothers : ∀ loggers, root { r with loggers := loggers } = root r)
    (hf : ∀ l : Logger, f { l with level := level, handlers := handled l.handlers } = g (f l))
    (hknown : r.IsKnown name) (a : String) :
    fieldOf root f (r.enable name level) a =
      if recordName a = recordName name then g (fieldOf root f r a) else fieldOf root f r a := by
  simp only [recordName_eq_iff, fieldOf]
  by_cases hname : isRoot name = true
  · by_cases ha : isRoot a = true
    · simp [enable, hname, ha, hroot]
    · simp [enable, hname, ha, find?]
  · rw [Bool.not_eq_true] at hname
    have hsame : root (r.enable name level) = root r := by
      rw [enable, if_neg (by simp [hname]), hothers]
    by_cases ha : a = name
    · subst ha
      obtain ⟨l, hl⟩ := Option.isSome_iff_exists.mp (hknown.resolve_left (by simp [hname]))
      simp [find?_enable hname, hname, hl, hf]
    · simp [find?_enable hname, hname, ha, hsame]

theorem levelOf_enable (hknown : r.IsKnown name) (a : String) :
    (r.enable name level).levelOf a =
      if recordName a = recordName name then level else r.levelOf a :=
  fieldOf_enable rootLevel (g := fun _ => level) rfl (fun _ => rfl) (fun _ => rfl) hknown a

theorem handlersOf_enable (hknown : r.IsKnown name) (a : String) :
    (r.enable name level).handlersOf a =
      if recordName a = recordName name then handled (r.handlersOf a) else r.handlersOf a :=
  fieldOf_enable rootHandlers (g := handled) rfl (fun _ => rfl) (fun _ => rfl) hknown a

/-! ### The way up -/

/-- The names of the topmost logger are left to it. -/
def IsProper (r : Registry) : Prop := ∀ l ∈ r.loggers, isRoot l.name = false

instance : DecidablePred IsProper := fun r =>
  inferInstanceAs (Decidable (∀ l ∈ r.loggers, isRoot l.name = false))

/-- Each logger stands below the nearest logger above it that is known. -/
def IsHierarchical (r : Registry) : Prop := ∀ l ∈ r.loggers, l.parent = r.parentOf l.name

instance : DecidablePred IsHierarchical := fun r =>
  inferInstanceAs (Decidable (∀ l ∈ r.loggers, l.parent = r.parentOf l.name))

/-- The name is one that the name of the topmost logger begins with, as `r`, `ro` and `roo`.  If
there are loggers below it that stand below the topmost one, they stay there. -/
def isMistaken (name : String) : Bool :=
  !isRoot name && name.toList.isPrefixOf rootName.toList

theorem IsProper.register (h : r.IsProper) (name : String) : (r.register name).IsProper := by
  obtain ⟨-, hsame⟩ | ⟨hroot, hnew⟩ := register_cases r name
  · rwa [hsame]
  · rw [register_of_new hroot hnew]
    intro l hl
    rcases List.mem_append.mp hl with hold | hlast
    · obtain ⟨l₀, hl₀, rfl⟩ := List.mem_map.mp hold
      rw [adopted_name]
      exact h l₀ hl₀
    · rw [List.mem_singleton.mp hlast]
      exact hroot

theorem IsProper.enable (h : r.IsProper) (name : String) (level : Nat) :
    (r.enable name level).IsProper := by
  unfold Registry.enable
  split
  · exact h
  · intro l hl
    obtain ⟨l₀, hl₀, rfl⟩ := List.mem_map.mp hl
    have := h l₀ hl₀
    split <;> exact this

theorem IsProper.find?_eq_none (h : r.IsProper) (hroot : isRoot name = true) :
    r.find? name = none := by
  cases hl : r.find? name with
  | none => rfl
  | some l =>
    obtain ⟨hmem, rfl⟩ := of_find? hl
    rw [h l hmem] at hroot
    cases hroot

/-- Of names that become shorter and shorter, all of them beginnings of a text, the first that is
known or that is `name`. -/
theorem find?_or_eq {w : List Char} {known : String → Bool}
    (hsorted : names.Pairwise fun a b => b.toList.length < a.toList.length)
    (hbegin : ∀ a ∈ names, a.toList <+: w) (hmem : name ∈ names) (hnew : known name = false) :
    (names.find? fun a => known a || a == name) =
      match names.find? known with
      | some a => if name.toList <+: a.toList then some a else some name
      | none => some name := by
  induction names with
  | nil => cases hmem
  | cons a names ih =>
    obtain ⟨hshorter, hrest⟩ := List.pairwise_cons.mp hsorted
    by_cases ha : a = name
    · -- What is known further on is shorter than the name, which cannot be a beginning of it.
      subst ha
      rw [List.find?_cons_of_pos (by simp), List.find?_cons_of_neg (by simp [hnew])]
      cases hb : names.find? known with
      | none => rfl
      | some b =>
        have hlt := hshorter b (List.mem_of_find?_eq_some hb)
        have hnot : ¬ a.toList <+: b.toList := fun hp => by
          have := hp.length_le
          omega
        simp [hnot]
    · have hin : name ∈ names := (List.mem_cons.mp hmem).resolve_left (Ne.symm ha)
      by_cases hk : known a = true
      · have hp : name.toList <+: a.toList :=
          List.prefix_of_prefix_length_le (hbegin name hmem) (hbegin a List.mem_cons_self)
            (Nat.le_of_lt (hshorter name hin))
        rw [List.find?_cons_of_pos (by simp [hk]), List.find?_cons_of_pos hk]
        simp [hp]
      · rw [List.find?_cons_of_neg (by simp [hk, ha]), List.find?_cons_of_neg hk]
        exact ih hrest (fun b hb => hbegin b (List.mem_cons_of_mem a hb)) hin

theorem parentOf_register (hroot : isRoot name = false) (hnew : r.find? name = none) (b : String) :
    (r.register name).parentOf b =
      (ancestors b).find? fun a => (r.find? a).isSome || a == name := by
  unfold parentOf
  congr 1
  funext a
  rw [find?_register hroot hnew]
  by_cases ha : a = name <;> simp [ha]

theorem parentOf_register_of_notMem (h : name ∉ ancestors b) :
    (r.register name).parentOf b = r.parentOf b := by
  obtain ⟨-, hsame⟩ | ⟨hroot, hnew⟩ := register_cases r name
  · rw [hsame]
  · rw [parentOf_register hroot hnew, parentOf]
    refine List.find?_congr fun a ha => ?_
    have hne : (a == name) = false := by
      rw [beq_eq_false_iff_ne]
      rintro rfl
      exact h ha
    rw [hne, Bool.or_false]

/-- A logger that becomes known takes its place between those above it and those below it. -/
theorem IsHierarchical.register (h : r.IsHierarchical) (hname : isMistaken name = false) :
    (r.register name).IsHierarchical := by
  obtain ⟨-, hsame⟩ | ⟨hroot, hnew⟩ := register_cases r name
  · rwa [hsame]
  have hbegin : ¬ name.toList <+: rootName.toList := by
    rw [← List.isPrefixOf_iff_prefix, Bool.not_eq_true]
    simpa [isMistaken, hroot] using hname
  intro l hl
  rw [register_of_new hroot hnew] at hl
  rcases List.mem_append.mp hl with hold | hlast
  · obtain ⟨l₀, hl₀, rfl⟩ := List.mem_map.mp hold
    have hparent := h l₀ hl₀
    rw [adopted_name]
    by_cases hbelow : name ∈ ancestors l₀.name
    · rw [parentOf_register hroot hnew, find?_or_eq (ancestors_pairwise _)
        (fun a ha => (mem_ancestors ha).1) hbelow (by simp [hnew]), ← parentOf, ← hparent, adopted,
        parentName]
      cases hl₀ : l₀.parent with
      | none => simp [hbelow, hbegin]
      | some a => by_cases hp : name.toList <+: a.toList <;> simp [hbelow, hp, hl₀]
    · rw [parentOf_register_of_notMem hbelow, ← hparent, adopted,
        if_neg fun hc => hbelow hc.1]
  · rw [List.mem_singleton.mp hlast, parentOf_register_of_notMem (self_notMem_ancestors name)]

theorem IsHierarchical.enable (h : r.IsHierarchical) (name : String) (level : Nat) :
    (r.enable name level).IsHierarchical := by
  by_cases hroot : isRoot name = true
  · rw [Registry.enable, if_pos hroot]
    exact h
  · rw [Bool.not_eq_true] at hroot
    have hparents : (r.enable name level).parentOf = r.parentOf := by
      funext b
      simp only [parentOf, isSome_find?_enable]
    intro l hl
    rw [hparents]
    rw [Registry.enable, if_neg (by simp [hroot])] at hl
    obtain ⟨l₀, hl₀, rfl⟩ := List.mem_map.mp hl
    have := h l₀ hl₀
    split <;> exact this

/-! ### Records -/

/-- The loggers on the way up from the nearest known one, if the way up begins with the last of
some parts: those of the names on it that are known. -/
theorem parentsWithin_upwards (h : r.IsHierarchical) (hps : ∀ p ∈ ps, IsPart p) {fuel : Nat}
    (hfuel : ((upwards ps).filterMap r.find?).length ≤ fuel) :
    (((upwards ps).find? fun a => (r.find? a).isSome).map (r.parentsWithin fuel)).getD [] =
      (upwards ps).filterMap r.find? := by
  induction ps generalizing fuel with
  | nil => rfl
  | cons p ps ih =>
    have hrest : ∀ q ∈ ps, IsPart q := fun q hq => hps q (List.mem_cons_of_mem p hq)
    rw [upwards] at hfuel ⊢
    cases hl : r.find? (dotted (p :: ps).reverse) with
    | none =>
      rw [List.filterMap_cons_none hl] at hfuel ⊢
      rw [List.find?_cons_of_neg (by rw [hl]; exact Bool.false_ne_true)]
      exact ih hrest hfuel
    | some l =>
      rw [List.filterMap_cons_some hl] at hfuel ⊢
      rw [List.find?_cons_of_pos (by rw [hl]; rfl)]
      cases fuel with
      | zero => simp at hfuel
      | succ fuel =>
        obtain ⟨hmem, hname⟩ := of_find? hl
        have hparent : l.parent = (upwards ps).find? fun a => (r.find? a).isSome := by
          rw [h l hmem, hname, parentOf, ancestors_dotted hps]
        simp only [Option.map_some, Option.getD_some, parentsWithin, hl]
        rw [hparent, ih hrest (by simpa using hfuel)]

/-- There are no more known loggers on the way up than there are loggers. -/
theorem length_filterMap_find?_le (h : names.Nodup) :
    (names.filterMap r.find?).length ≤ r.loggers.length := by
  have hinj : ∀ a b l, l ∈ r.find? a → l ∈ r.find? b → a = b := fun a b l ha hb =>
    (of_find? ha).2.symm.trans (of_find? hb).2
  refine (List.subperm_of_subset (h.filterMap hinj) fun l hl => ?_).length_le
  obtain ⟨a, _, ha⟩ := List.mem_filterMap.mp hl
  exact (of_find? ha).1

/-- The loggers from one upwards are the known ones on its way up. -/
theorem parents_dotted (hproper : r.IsProper) (h : r.IsHierarchical)
    (hparts : ∀ p ∈ parts, IsPart p)
    (hknown : r.IsKnown (dotted parts)) :
    r.parents (dotted parts) = (upwards parts.reverse).filterMap r.find? := by
  obtain ⟨ps, rfl⟩ : ∃ ps, parts = ps.reverse := ⟨parts.reverse, by rw [List.reverse_reverse]⟩
  rw [List.reverse_reverse]
  have hps : ∀ p ∈ ps, IsPart p := fun p hp => hparts p (List.mem_reverse.mpr hp)
  by_cases hroot : isRoot (dotted ps.reverse) = true
  · have hnone := hproper.find?_eq_none hroot
    have hways : (upwards ps).filterMap r.find? = [] := by
      cases ps with
      | nil => rfl
      | cons p ps =>
        rw [upwards_of_isRoot hps hroot, List.filterMap_cons_none hnone, List.filterMap_nil]
    rw [hways, parents, parentsWithin, hnone]
  · cases ps with
    | nil => exact absurd rfl hroot
    | cons p ps =>
      have hfuel := length_filterMap_find?_le (r := r) (upwards_nodup hps)
      have hfound := hknown.resolve_left hroot
      rw [← parentsWithin_upwards h hps (Nat.le_succ_of_le hfuel), upwards,
        List.find?_cons_of_pos (by exact hfound)]
      rfl

/-- A logger that is not known has no level and no handlers, so that it is no matter whether it is
counted. -/
theorem fields_of_find? (hproper : r.IsProper) (name : String) :
    (r.find? name = none ∧ (isRoot name = true ∨ r.levelOf name = 0 ∧ r.handlersOf name = 0)) ∨
      ∃ l, r.find? name = some l ∧ isRoot name = false ∧ r.levelOf name = l.level ∧
        r.handlersOf name = l.handlers := by
  cases hl : r.find? name with
  | none =>
    by_cases hroot : isRoot name = true
    · exact .inl ⟨rfl, .inl hroot⟩
    · exact .inl ⟨rfl, .inr (by simp [levelOf, handlersOf, hroot, hl])⟩
  | some l =>
    obtain ⟨hmem, hname⟩ := of_find? hl
    have hroot : isRoot name = false := hname ▸ hproper l hmem
    exact .inr ⟨l, rfl, hroot, by simp [levelOf, hroot, hl], by simp [handlersOf, hroot, hl]⟩

theorem find?_level_eq (hproper : r.IsProper) (names : List String) :
    ((names.filterMap r.find?).map Logger.level).find? (· != 0) =
      ((names.filter fun n => !isRoot n).map r.levelOf).find? (· != 0) := by
  induction names with
  | nil => rfl
  | cons n names ih =>
    obtain ⟨hnone, hroot | ⟨hlevel, -⟩⟩ | ⟨l, hl, hroot, hlevel, -⟩ := fields_of_find? hproper n
    · rw [List.filterMap_cons_none hnone, ih, List.filter_cons_of_neg (by simp [hroot])]
    · rw [List.filterMap_cons_none hnone, ih, List.filter_cons]
      split
      · rw [List.map_cons, hlevel, List.find?_cons_of_neg (by simp)]
      · rfl
    · rw [List.filterMap_cons_some hl, List.filter_cons_of_pos (by simp [hroot]), List.map_cons,
        List.map_cons, hlevel, List.find?_cons, List.find?_cons, ih]

theorem foldr_handlers_eq (hproper : r.IsProper) (names : List String) (start : Nat) :
    (names.filterMap r.find?).foldr (fun l n => l.handlers + n) start =
      (names.filter fun n => !isRoot n).foldr (fun a n => r.handlersOf a + n) start := by
  induction names with
  | nil => rfl
  | cons n names ih =>
    obtain ⟨hnone, hroot | ⟨-, hzero⟩⟩ | ⟨l, hl, hroot, -, hhandlers⟩ := fields_of_find? hproper n
    · rw [List.filterMap_cons_none hnone, ih, List.filter_cons_of_neg (by simp [hroot])]
    · rw [List.filterMap_cons_none hnone, ih, List.filter_cons]
      split
      · rw [List.foldr_cons, hzero, Nat.zero_add]
      · rfl
    · rw [List.filterMap_cons_some hl, List.filter_cons_of_pos (by simp [hroot]), List.foldr_cons,
        List.foldr_cons, hhandlers, ih]

/-- The first level that is set on a way up. -/
def firstLevel (levelOf : String → Nat) (names : List String) : Nat :=
  ((names.map levelOf).find? (· != 0)).getD 0

theorem threshold_dotted (hproper : r.IsProper) (h : r.IsHierarchical)
    (hparts : ∀ p ∈ parts, IsPart p)
    (hknown : r.IsKnown (dotted parts)) :
    r.threshold (dotted parts) = firstLevel r.levelOf (lineage parts) := by
  have hparents := parents_dotted hproper h hparts hknown
  rw [threshold, hparents, find?_level_eq hproper, firstLevel, lineage, List.map_append,
    List.find?_append]
  -- Only where no level is set below it the one of the topmost logger counts.
  cases ((upwards parts.reverse).filter fun n => !isRoot n).map r.levelOf |>.find? (· != 0) with
  | some level => rfl
  | none =>
    change r.rootLevel = ([r.rootLevel].find? (· != 0)).getD 0
    by_cases hroot : r.rootLevel = 0 <;> simp [hroot]

theorem handlersAbove_dotted (hproper : r.IsProper) (h : r.IsHierarchical)
    (hparts : ∀ p ∈ parts, IsPart p)
    (hknown : r.IsKnown (dotted parts)) :
    r.handlersAbove (dotted parts) = (lineage parts).foldr (fun a n => r.handlersOf a + n) 0 := by
  rw [handlersAbove, parents_dotted hproper h hparts hknown, foldr_handlers_eq hproper, lineage,
    List.foldr_append]
  rfl

/-- A record is written by each handler on its way up, if the first level set on it lets it
pass. -/
theorem copies_dotted (hproper : r.IsProper) (h : r.IsHierarchical)
    (hparts : ∀ p ∈ parts, IsPart p)
    (hknown : r.IsKnown (dotted parts)) (level : Level) :
    r.copies (dotted parts) level =
      if firstLevel r.levelOf (lineage parts) ≤ level.number then
        (lineage parts).foldr (fun a n => r.handlersOf a + n) 0
      else 0 := by
  simp only [copies, passes, threshold_dotted hproper h hparts hknown,
    handlersAbove_dotted hproper h hparts hknown, decide_eq_true_eq]

/-- A record that passes is left to the handler of last resort if there are no handlers on its way
up, and if it is a warning or worse. -/
theorem isForgotten_dotted (hproper : r.IsProper) (h : r.IsHierarchical)
    (hparts : ∀ p ∈ parts, IsPart p)
    (hknown : r.IsKnown (dotted parts)) (level : Level) :
    r.isForgotten (dotted parts) level = true ↔
      r.lastResort = true ∧ firstLevel r.levelOf (lineage parts) ≤ level.number ∧
        (lineage parts).foldr (fun a n => r.handlersOf a + n) 0 = 0 ∧
          Level.warning.number ≤ level.number := by
  simp only [isForgotten, passes, threshold_dotted hproper h hparts hknown,
    handlersAbove_dotted hproper h hparts hknown, Bool.and_eq_true, decide_eq_true_eq, and_assoc]

end Registry

end Log

end BoardWiring
