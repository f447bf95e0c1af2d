import BoardWiring.Proofs.Emission
import Mathlib.Data.List.Basic
import Mathlib.Data.List.Perm.Basic
import Mathlib.Data.Nat.Find

/-!
# The check for pins used a second time

`Emit.checkUnique` refuses a list of pins in which a pin is repeated.  It stands first for the pins
of the bus and the layout together, and again in the emitters for the layout alone.

* `Emit.FirstRepeat` is the first position of a list whose pin stands further up too, and
  `Emit.firstRepeat?_eq_some_iff` says that the search finds the pin there;
* `Emit.checkUnique_of_present` says that only the pins that are there count, in whatever order;
* `Emit.layout_ne_repeated` says that the emitters do not report a repetition in a layout that the
  check has let through;
* `Emit.checkUnique_first_repetition` is all of this about one list.
-/

namespace BoardWiring

open Outcome

namespace Emit

/-! ### The first repetition -/

/-- The pin at a position of a list is there, and stands further up in the list too. -/
def RepeatsAt (ps : List Pin) (n : Nat) (p : Pin) : Prop :=
  p ≠ .absent ∧ ps[n]? = some p ∧ ∃ m < n, ps[m]? = some p

/-- The first position of a list at which a pin is repeated, and that pin. -/
def FirstRepeat (ps : List Pin) (n : Nat) (p : Pin) : Prop :=
  RepeatsAt ps n p ∧ ∀ m q, RepeatsAt ps m q → n ≤ m

variable {ps qs : List Pin} {p : Pin} {n : Nat}

theorem repeatsAt_iff : RepeatsAt ps n p ↔ ps[n]? = some p ∧ isRepeat ps (p, n) = true := by
  have hearlier : p ∈ ps.take n ↔ ∃ m < n, ps[m]? = some p := by
    rw [List.mem_iff_getElem?]
    constructor
    · rintro ⟨m, hm⟩
      rw [List.getElem?_take] at hm
      split_ifs at hm with hlt
      exact ⟨m, hlt, hm⟩
    · rintro ⟨m, hlt, hm⟩
      exact ⟨m, by rw [List.getElem?_take, if_pos hlt, hm]⟩
  rw [RepeatsAt, isRepeat, Bool.and_eq_true, decide_eq_true_eq, decide_eq_true_eq, hearlier]
  tauto

/-- **The search finds the pin at the first position at which a pin is repeated.** -/
theorem firstRepeat?_eq_some_iff : firstRepeat? ps = some p ↔ ∃ n, FirstRepeat ps n p := by
  have hentry : ∀ (m : Nat) (hm : m < ps.zipIdx.length) (q : Pin × Nat),
      ps.zipIdx[m] = q ↔ ps[m]? = some q.1 ∧ m = q.2 := by
    intro m hm q
    rw [List.length_zipIdx] at hm
    rw [List.getElem_zipIdx, List.getElem?_eq_getElem hm, Option.some.injEq, Nat.zero_add]
    exact Prod.ext_iff
  rw [firstRepeat?_eq_find?, Option.map_eq_some_iff]
  constructor
  · rintro ⟨⟨q, n⟩, hfind, rfl⟩
    obtain ⟨hrepeat, i, hi, hat, hbefore⟩ := List.find?_eq_some_iff_getElem.1 hfind
    obtain ⟨hq, rfl⟩ := (hentry i hi _).1 hat
    refine ⟨i, repeatsAt_iff.2 ⟨hq, hrepeat⟩, fun m r hr => ?_⟩
    by_contra hlt
    obtain ⟨hm, hrm⟩ := repeatsAt_iff.1 hr
    have hno := hbefore m (Nat.lt_of_not_le hlt)
    rw [(hentry m _ (r, m)).2 ⟨hm, rfl⟩, hrm] at hno
    cases hno
  · rintro ⟨n, hrepeat, hfirst⟩
    obtain ⟨hn, hrn⟩ := repeatsAt_iff.1 hrepeat
    have hlt : n < ps.zipIdx.length := by
      rw [List.length_zipIdx]
      exact (List.getElem?_eq_some_iff.1 hn).1
    refine ⟨(p, n), List.find?_eq_some_iff_getElem.2
      ⟨hrn, n, hlt, (hentry n hlt _).2 ⟨hn, rfl⟩, fun m hm => ?_⟩, rfl⟩
    -- A repetition at an earlier position would be an earlier first one.
    have hm' : m < ps.length := by
      rw [List.length_zipIdx] at hlt
      omega
    have hat : ps.zipIdx[m] = (ps[m], m) := (hentry m _ _).2 ⟨List.getElem?_eq_getElem hm', rfl⟩
    rw [hat, Bool.not_eq_true']
    by_contra htrue
    have hle := hfirst m ps[m]
      (repeatsAt_iff.2 ⟨List.getElem?_eq_getElem hm', by simpa using htrue⟩)
    omega

theorem checkUnique_eq_error_iff {f : Failure} :
    checkUnique ps = .error f ↔ ∃ n p, FirstRepeat ps n p ∧ f = p.blamed (.repeated p) := by
  have hcheck : checkUnique ps = .error f ↔
      ∃ p, firstRepeat? ps = some p ∧ f = p.blamed (.repeated p) := by
    unfold checkUnique
    cases firstRepeat? ps <;> simp [eq_comm]
  rw [hcheck]
  simp only [firstRepeat?_eq_some_iff]
  exact ⟨fun ⟨p, ⟨n, hn⟩, hf⟩ => ⟨n, p, hn, hf⟩, fun ⟨n, p, hn, hf⟩ => ⟨p, ⟨n, hn⟩, hf⟩⟩

/-! ### Which lists are let through -/

theorem checkUnique_eq_ok_iff_nodup :
    checkUnique ps = .ok () ↔ (ps.filter (· ≠ .absent)).Nodup :=
  checkUnique_eq_ok_iff.trans firstRepeat?_eq_none_iff

theorem not_nodup_iff : ¬(ps.filter (· ≠ .absent)).Nodup ↔
    ∃ p : Pin, p ≠ .absent ∧ ∃ m n : Nat, m ≠ n ∧ ps[m]? = some p ∧ ps[n]? = some p := by
  classical
  have hcheck : ¬(ps.filter (· ≠ .absent)).Nodup ↔ ∃ p, firstRepeat? ps = some p := by
    rw [← firstRepeat?_eq_none_iff, ← Option.ne_none_iff_exists']
  rw [hcheck]
  constructor
  · rintro ⟨p, hp⟩
    obtain ⟨n, ⟨hpresent, hn, m, hmn, hm⟩, -⟩ := firstRepeat?_eq_some_iff.1 hp
    exact ⟨p, hpresent, m, n, by omega, hm, hn⟩
  · rintro ⟨p, hpresent, m, n, hne, hm, hn⟩
    have hrepeat : ∃ k q, RepeatsAt ps k q := by
      rcases Nat.lt_or_gt_of_ne hne with hlt | hlt
      · exact ⟨n, p, hpresent, hn, m, hlt, hm⟩
      · exact ⟨m, p, hpresent, hm, n, hlt, hn⟩
    obtain ⟨q, hq⟩ := Nat.find_spec hrepeat
    exact ⟨q, firstRepeat?_eq_some_iff.2
      ⟨Nat.find hrepeat, hq, fun k r hr => Nat.find_min' hrepeat ⟨r, hr⟩⟩⟩

/-- **Only the pins that are there count, and their order does not.** -/
theorem checkUnique_of_present
    (h : (qs.filter (· ≠ .absent)).Perm (ps.filter (· ≠ .absent))) :
    checkUnique qs = .ok () ↔ checkUnique ps = .ok () := by
  rw [checkUnique_eq_ok_iff_nodup, checkUnique_eq_ok_iff_nodup]
  exact h.nodup_iff

theorem checkUnique_of_sublist (hsub : qs.Sublist ps) (h : checkUnique ps = .ok ()) :
    checkUnique qs = .ok () :=
  checkUnique_eq_ok_iff.2 (firstRepeat?_of_sublist hsub (checkUnique_eq_ok_iff.1 h))

/-! ### The check in the emitters -/

theorem raggedRow_ne_repeated (row length expected : Nat) (p : Pin) :
    ConfigError.raggedRow row length expected ≠ .repeated p := by
  intro h
  have hreason := congrArg String.toList (ConfigError.invalidPlacement.inj h).2
  simp [String.toList_append] at hreason

theorem stopFault?_ne_repeated {family : Family} {q : Pin} {role : Role} :
    stopFault? family q role ≠ some (.config (.repeated p)) := by
  unfold stopFault? pinFault?
  cases q with
  | absent => simp [isShort, ConfigError.absentInitialised, ConfigError.repeated]
  | mcu name number => split_ifs <;> simp
  | expander e => split_ifs <;> simp [ConfigError.expanderIndex, ConfigError.repeated]

/-- **The emitters do not report a repetition in a layout that the check has let through.** -/
theorem layout_ne_repeated {l : Layout Pin} (h : checkUnique l.toList = .ok ())
    (family : Family) (interrupt activeLow : Bool) (p : Pin) :
    layout family l interrupt activeLow ≠ .error (.config (.repeated p)) := by
  have hnone : repeatFault? l.toList = none := by
    rw [repeatFault?, checkUnique_eq_ok_iff.1 h, Option.map_none]
  have habsent : (absentFault? l.toList).map .config ≠ some (Failure.config (.repeated p)) := by
    unfold absentFault?
    split_ifs <;> simp [ConfigError.absentOutsideGrid, ConfigError.repeated]
  have hfault : layoutFault? family interrupt l ≠ some (.config (.repeated p)) := by
    cases l with
    | matrix rows cols =>
      rw [Layout.toList] at hnone habsent
      rw [layoutFault?, hnone, Option.none_or]
      simp only [ne_eq, Option.or_eq_some_iff, List.findSome?_eq_some_iff, not_or, not_and]
      refine ⟨habsent, fun _ => ⟨?_, fun _ => ?_⟩⟩
      · rintro ⟨-, q, -, -, hq, -⟩
        exact stopFault?_ne_repeated hq
      · rintro ⟨-, q, -, -, hq, -⟩
        exact stopFault?_ne_repeated hq
    | grid rows =>
      rw [Layout.toList] at hnone
      rw [layoutFault?, hnone, Option.none_or]
      simp only [ne_eq, Option.or_eq_some_iff, List.findSome?_eq_some_iff, not_or, not_and]
      refine ⟨?_, fun _ => ?_⟩
      · intro hragged
        obtain ⟨e, he, hrepeated⟩ := Option.map_eq_some_iff.1 hragged
        obtain ⟨r, -, rfl⟩ := Option.map_eq_some_iff.1 he
        exact raggedRow_ne_repeated _ _ _ p (Failure.config.inj hrepeated)
      · rintro ⟨-, q, -, -, hq, -⟩
        unfold placeFault? at hq
        split_ifs at hq
        exact stopFault?_ne_repeated hq
  rw [layout_eq_ofFault?]
  cases hl : layoutFault? family interrupt l with
  | none =>
    intro hok
    cases hok
  | some f =>
    rintro hf
    cases hf
    exact hfault hl

/-- **The check reports exactly the first repetition.**  It refuses a list if and only if a pin that
is there stands at two positions, and then it reports the pin at the first position that holds such
a pin for a second time, if its index can be written.  Neither the order of the pins nor the absent
ones decide whether a list is let through, and with a list all its sublists are; so a layout that is
let through behind the pins of the bus is let through by the check in the emitters. -/
theorem checkUnique_first_repetition (ps : List Pin) :
    ((∃ f, checkUnique ps = .error f) ↔
        ∃ p : Pin, p ≠ .absent ∧ ∃ m n : Nat, m ≠ n ∧ ps[m]? = some p ∧ ps[n]? = some p) ∧
      (∀ f, checkUnique ps = .error f ↔ ∃ n p, FirstRepeat ps n p ∧ f =
        if p.isWritable then .config (.invalidPlacement p.text "pin is used more than once")
        else .longInteger) ∧
      (∀ qs, qs.Perm ps → (checkUnique qs = .ok () ↔ checkUnique ps = .ok ())) ∧
      (∀ qs, qs.filter (· ≠ .absent) = ps.filter (· ≠ .absent) →
        (checkUnique qs = .ok () ↔ checkUnique ps = .ok ())) ∧
      (∀ qs, qs.Sublist ps → checkUnique ps = .ok () → checkUnique qs = .ok ()) ∧
      (∀ claimed l, ps = claimed ++ l.toList → checkUnique ps = .ok () →
        checkUnique l.toList = .ok () ∧ ∀ family interrupt activeLow p,
          layout family l interrupt activeLow ≠ .error (.config (.repeated p))) := by
  refine ⟨?_, fun f => checkUnique_eq_error_iff, fun qs h => checkUnique_of_present (h.filter _),
    fun qs h => checkUnique_of_present (.of_eq h), fun qs => checkUnique_of_sublist, ?_⟩
  · rw [← not_nodup_iff, ← checkUnique_eq_ok_iff_nodup]
    cases checkUnique ps <;> simp
  · rintro claimed l rfl h
    have hl : checkUnique l.toList = .ok () :=
      checkUnique_of_sublist (List.sublist_append_right claimed l.toList) h
    exact ⟨hl, layout_ne_repeated hl⟩

/-- The pins of a bus. -/
def sharedPins : List Pin := [.mcu "PB7" 7, .mcu "PB6" 6]

/-- A grid with a pin of an expander and with places without a pin. -/
def sharedGrid : Layout Pin :=
  .grid [[.mcu "PA0" 0, .absent], [.absent, .expander ⟨0x20, .a, 1⟩]]

/-- The grid is let through with the pins of the bus, so in any order, without its absent pins, in
part, and by the emitters.  If a key has the pin of the bus instead, that is the repetition found,
though a place further on repeats the other one. -/
theorem checkUnique_first_repetition_shared :
    checkUnique (sharedPins ++ sharedGrid.toList) = .ok () ∧
      checkUnique (sharedPins ++ sharedGrid.toList).reverse = .ok () ∧
      checkUnique ((sharedPins ++ sharedGrid.toList).filter (· ≠ .absent)) = .ok () ∧
      checkUnique (sharedPins ++ sharedGrid.toList).tail = .ok () ∧
      layout .stm32 sharedGrid true false ≠
        .error (.config (.repeated (.expander ⟨0x20, .a, 1⟩))) ∧
      checkUnique (sharedPins ++ [.absent, .absent, .mcu "PB6" 6, .mcu "PB7" 7]) =
        .error (.config (.invalidPlacement "PB6" "pin is used more than once")) := by
  have hok : checkUnique (sharedPins ++ sharedGrid.toList) = .ok () := rfl
  obtain ⟨-, -, hperm, habsent, hsub, hlayout⟩ :=
    checkUnique_first_repetition (sharedPins ++ sharedGrid.toList)
  refine ⟨hok, (hperm _ (List.reverse_perm _)).2 hok, (habsent _ (by simp)).2 hok,
    hsub _ (List.tail_sublist _) hok, (hlayout _ _ rfl hok).2 _ _ _ _, rfl⟩

/-- A grid whose second row is longer than the first. -/
def steppedGrid : Layout Pin := .grid [[.mcu "PA0" 0], [.mcu "PA1" 1, .mcu "PA2" 2]]

/-- A pin that cannot be written is not reported, and a layout that the check has let through may
still be refused by the emitters, for its shape. -/
theorem checked_not_accepted :
    (¬∀ ps f, checkUnique ps = .error f → ∃ p ∈ ps, f = .config (.repeated p)) ∧
      ¬∀ family claimed l interrupt activeLow, checkUnique (claimed ++ l.toList) = .ok () →
        ∃ code, layout family l interrupt activeLow = .ok code := by
  constructor
  · intro h
    obtain ⟨p, -, hp⟩ := h [endlessPin, endlessPin] _ checkUnique_endlessPin
    cases hp
  · intro h
    obtain ⟨code, hcode⟩ := h .stm32 [] steppedGrid false false rfl
    have hragged : layout .stm32 steppedGrid false false =
        .error (.config (.raggedRow 1 2 1)) := rfl
    cases hragged.symm.trans hcode

end Emit

end BoardWiring
