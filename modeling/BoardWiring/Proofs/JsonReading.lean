import BoardWiring.Proofs.AsciiLiterals
import BoardWiring.Proofs.BindingNames
import BoardWiring.Proofs.NullFields
import BoardWiring.Proofs.NumberReading
import Mathlib.Tactic.IntervalCases

/-!
# JSON texts are read back

A value is written as one line of ASCII, whatever it is.  The values that JSON knows are read back
from it: truth values, integers, finite doubles and texts, and lists and mappings of these, the keys
of a mapping being texts that are different from one another.  Integers must be short enough to be
written, and in no text may two halves stand side by side that make a pair.

* `Json.areVisible_text` says that a line holds neither control characters nor others than ASCII;
* `Json.IsJson` are the values that JSON knows;
* `Json.readWithin_text` says that such a value is read up to its end whatever follows it, and
  `Json.read?_text` that the whole line is read back.
-/

namespace BoardWiring

namespace Json

open JsonString

/-! ### The characters of a line -/

theorem isVisible_digit : ∀ d < 10, IsVisible (Digits.digit d) := by decide

theorem areVisible_write (n : Nat) : AreVisible (Digits.write 10 n) :=
  Digits.forall_mem_write (by decide) isVisible_digit n

theorem areVisible_exponentChars (e : Int) : AreVisible (Shortest.exponentChars e) := by
  refine areVisible_cons.2 ⟨by decide, areVisible_cons.2 ⟨?_,
    Digits.forall_mem_padLeft (by decide) (areVisible_write _) 2⟩⟩
  split_ifs <;> decide

theorem areVisible_layout {s : Scientific} (h : AreVisible s.digits) :
    AreVisible (Shortest.layout s) := by
  have htake : ∀ n, AreVisible (s.digits.take n) := fun n c hc => h c (List.mem_of_mem_take hc)
  have hdrop : ∀ n, AreVisible (s.digits.drop n) := fun n c hc => h c (List.mem_of_mem_drop hc)
  have hzeros : ∀ n, AreVisible (List.replicate n '0') := by
    intro n c hc
    rw [List.eq_of_mem_replicate hc]
    decide
  have hpoint : ∀ ds, AreVisible ds → AreVisible ('.' :: ds) :=
    fun ds hds => areVisible_cons.2 ⟨by decide, hds⟩
  have horZero : ∀ n, AreVisible (Shortest.orZero (s.digits.drop n)) := by
    intro n
    unfold Shortest.orZero
    split_ifs
    · decide
    · exact hdrop n
  unfold Shortest.layout
  split_ifs
  · exact areVisible_append.2 ⟨areVisible_append.2 ⟨htake 1, by decide⟩,
      areVisible_exponentChars _⟩
  · exact areVisible_append.2 ⟨areVisible_append.2 ⟨htake 1, hpoint _ (hdrop 1)⟩,
      areVisible_exponentChars _⟩
  · exact areVisible_append.2 ⟨areVisible_cons.2 ⟨by decide, hpoint _ (hzeros _)⟩, h⟩
  · exact areVisible_append.2 ⟨areVisible_append.2 ⟨htake _, hzeros _⟩, hpoint _ (horZero _)⟩

theorem areVisible_digits (x : Binary64) (m : Nat) (e : Int) :
    AreVisible (Shortest.digits x m e).digits := by
  have hscientific : ∀ n k, AreVisible (Shortest.scientific n k).digits := by
    intro n k c hc
    obtain ⟨z, hz⟩ := Shortest.exists_scientific n k
    exact areVisible_write n c (hz ▸ List.mem_append_left _ hc)
  rw [Shortest.digits]
  cases hfound : (List.range 17).findSome? fun n => Shortest.withDigits? x
      (Binary64.magnitude m e).1 (Binary64.magnitude m e).2
      (Shortest.decimalExponent (Binary64.magnitude m e).1 (Binary64.magnitude m e).2) (n + 1) with
  | none => exact hscientific _ _
  | some s =>
    obtain ⟨n, -, hn⟩ := List.exists_of_findSome?_eq_some hfound
    obtain ⟨c, rfl, -⟩ := Shortest.exists_of_withDigits? hn
    exact hscientific _ _

theorem areVisible_double (x : Binary64) : AreVisible (double x).toList := by
  cases x with
  | nan => decide
  | infinite negative => cases negative <;> decide
  | finite negative m e =>
    have hdouble : double (.finite negative m e) = Shortest.text (.finite negative m e) := rfl
    rw [hdouble, Shortest.text, String.toList_ofList, Shortest.chars]
    refine areVisible_append.2 ⟨?_, ?_⟩
    · cases negative <;> decide
    · split_ifs
      · decide
      · exact areVisible_layout (areVisible_digits _ m e)

theorem areVisible_joined {s t : String} (hs : AreVisible s.toList) (ht : AreVisible t.toList) :
    AreVisible (s ++ t).toList := by
  rw [String.toList_append]
  exact areVisible_append.2 ⟨hs, ht⟩

theorem areVisible_intercalate {texts : List String} (h : ∀ s ∈ texts, AreVisible s.toList) :
    AreVisible (String.intercalate ", " texts).toList := by
  have hcomma : AreVisible ", ".toList := by decide
  intro c hc
  rw [String.toList_intercalate] at hc
  rcases Name.mem_intercalate hc with hsep | ⟨w, hw, hmem⟩
  · exact hcomma c hsep
  · obtain ⟨s, hs, rfl⟩ := List.mem_map.1 hw
    exact h s hs c hmem

theorem areVisible_nameLiteral (k : Value) : AreVisible (nameLiteral k).toList := by
  unfold nameLiteral
  split
  · exact areVisible_looseLiteral _
  · exact areVisible_asciiLiteral _

mutual

/-- **A value is written as one line of ASCII.** -/
theorem areVisible_text : ∀ v : Value, AreVisible (text v).toList
  | .null | .bool true | .bool false => by decide
  | .int i => Digits.forall_mem_signed (by decide) isVisible_digit i
  | .float x => areVisible_double x
  | .text s => areVisible_asciiLiteral s
  | .torn t => areVisible_looseLiteral t.text
  | .list xs => areVisible_joined (areVisible_joined (by decide)
      (areVisible_intercalate (areVisible_texts xs))) (by decide)
  | .pair a b => areVisible_joined (areVisible_joined (areVisible_joined (areVisible_joined
      (by decide) (areVisible_text a)) (by decide)) (areVisible_text b)) (by decide)
  | .mapping es => areVisible_joined (areVisible_joined (by decide)
      (areVisible_intercalate (areVisible_entries es))) (by decide)
  | .bytes _ | .date _ | .moment _ | .set _ | .cyclic _ _ | .again _ => areVisible_asciiLiteral _

theorem areVisible_texts : ∀ xs : List Value, ∀ s ∈ texts xs, AreVisible s.toList
  | [] => by simp [texts]
  | x :: xs => List.forall_mem_cons.2 ⟨areVisible_text x, areVisible_texts xs⟩

theorem areVisible_entries : ∀ es : List (Value × Value), ∀ s ∈ entries es, AreVisible s.toList
  | [] => by simp [entries]
  | (k, x) :: es => List.forall_mem_cons.2 ⟨areVisible_joined (areVisible_joined
      (areVisible_nameLiteral k) (by decide)) (areVisible_text x), areVisible_entries es⟩

end

/-! ### Values that are read back -/

/-- The entries of a mapping with texts for keys. -/
def named (fields : List (LooseText × Value)) : List (Value × Value) :=
  fields.map fun f => (f.1.value, f.2)

/-- The values that JSON knows and that can be told from their line. -/
inductive IsJson : Value → Prop where
  | null : IsJson .null
  | bool (b : Bool) : IsJson (.bool b)
  | int {i : Int} (short : Digits.isWritable i = true) : IsJson (.int i)
  | float {negative : Bool} {m : Nat} {e : Int} (finite : Binary64.IsFinite m e) :
      IsJson (.float (.finite negative m e))
  | text {t : LooseText} (unpaired : IsUnpaired t.points) : IsJson t.value
  | list {items : List Value} (each : ∀ x ∈ items, IsJson x) : IsJson (.list items)
  | mapping {fields : List (LooseText × Value)} (distinct : (fields.map Prod.fst).Nodup)
      (unpaired : ∀ f ∈ fields, IsUnpaired f.1.points)
      (each : ∀ f ∈ fields, IsJson f.2) : IsJson (.mapping (named fields))

theorem isJson_string (s : String) : IsJson (.text s) := by
  rw [← LooseText.value_ofString]
  exact .text (isUnpaired_map_char s.toList)

/-- A value is read up to its end, whatever follows it. -/
def IsReadBack (v : Value) : Prop :=
  ∀ fuel rest, (text v).toList.length ≤ fuel → IsEnd rest →
    readWithin fuel ((text v).toList ++ rest) = some (v, rest)

variable {fuel : Nat} {rest cs : List Char} {fields : List (LooseText × Value)} {t : LooseText}

/-! ### Texts -/

theorem value_injective {t u : LooseText} (h : t.value = u.value) : t = u := by
  rw [← Value.asText_value t, h, Value.asText_value]

theorem sameKey_value_iff {t u : LooseText} :
    Value.sameKey t.value u.value = true ↔ t = u := by
  have hkey : ∀ v : Value, Value.sameKey v u.value = true ↔ v = u.value := by
    intro v
    unfold LooseText.value
    split
    · exact Value.sameKey_text_iff
    · cases v <;> simp [Value.sameKey, Value.asInt?, Value.alike]
  rw [hkey]
  exact ⟨value_injective, fun h => h ▸ rfl⟩

/-- **A value that JSON knows can be written.** -/
theorem IsJson.isWritable {v : Value} (h : IsJson v) : v.isWritable = true := by
  induction h with
  | null | bool | float => rfl
  | int short => exact short
  | text => exact Value.isWritable_value _
  | @list items _ ih =>
    have hitems : ∀ xs : List Value, (∀ x ∈ xs, x.isWritable = true) →
        Value.areWritable xs = true := by
      intro xs
      induction xs with
      | nil => exact fun _ => rfl
      | cons x xs ihxs =>
        intro hxs
        obtain ⟨hx, hrest⟩ := List.forall_mem_cons.1 hxs
        exact Bool.and_eq_true_iff.2 ⟨hx, ihxs hrest⟩
    exact hitems items ih
  | @mapping fields _ _ _ ih =>
    have hentries : ∀ fs : List (LooseText × Value), (∀ f ∈ fs, f.2.isWritable = true) →
        Value.entriesWritable (named fs) = true := by
      intro fs
      induction fs with
      | nil => exact fun _ => rfl
      | cons f fs ihfs =>
        intro hfs
        obtain ⟨hf, hrest⟩ := List.forall_mem_cons.1 hfs
        have hfirst : (f.1.value.isWritable && f.2.isWritable) = true :=
          Bool.and_eq_true_iff.2 ⟨Value.isWritable_value f.1, hf⟩
        exact Bool.and_eq_true_iff.2 ⟨hfirst, ihfs hrest⟩
    exact hentries fields ih

/-! ### White space -/

theorem skip_of_not_isSpace {c : Char} (h : isSpace c = false) : skip (c :: cs) = c :: cs := by
  rw [skip, List.dropWhile_cons, if_neg (by rw [h]; decide)]

theorem readWithin_space : readWithin fuel (' ' :: cs) = readWithin fuel cs := by
  cases fuel <;> rfl

theorem readItems_space : readItems fuel (' ' :: cs) = readItems fuel cs := by
  cases fuel with
  | zero => rfl
  | succ fuel => rw [readItems, readItems, readWithin_space]

theorem readEntries_space {before : List (Value × Value)} :
    readEntries fuel (' ' :: cs) before = readEntries fuel cs before := by
  cases fuel <;> rfl

/-! ### Words, numbers and texts -/

theorem isReadBack_of_succ {v : Value} (hne : (text v).toList ≠ [])
    (h : ∀ fuel rest, (text v).toList.length ≤ fuel + 1 → IsEnd rest →
      readWithin (fuel + 1) ((text v).toList ++ rest) = some (v, rest)) : IsReadBack v := by
  intro fuel rest hfuel hrest
  have hpos := List.length_pos_iff.2 hne
  obtain ⟨fuel, rfl⟩ : ∃ k, fuel = k + 1 := ⟨fuel - 1, by omega⟩
  exact h fuel rest hfuel hrest

/-- A number is no word. -/
theorem readWithin_sign {negative : Bool} (h : HasDigit cs) :
    readWithin (fuel + 1) (Shortest.sign negative ++ cs) =
      readNumber? (Shortest.sign negative ++ cs) := by
  obtain ⟨d, ds, hd, rfl⟩ := h
  cases negative <;> interval_cases d <;> rfl

theorem isReadBack_int (i : Int) : IsReadBack (.int i) := by
  have htext : (text (.int i)).toList = Digits.signedIn 10 i := String.toList_ofList
  refine isReadBack_of_succ ?_ fun fuel rest _ hrest => ?_
  · rw [htext, signedIn_eq]
    exact List.append_ne_nil_of_right_ne_nil _ (Digits.write_ne_nil 10 _)
  · rw [htext, ← readNumber?_signed i hrest, signedIn_eq, List.append_assoc]
    exact readWithin_sign ((isWhole_write _).hasDigit.append rest)

theorem isReadBack_float {negative : Bool} {m : Nat} {e : Int} (h : Binary64.IsFinite m e) :
    IsReadBack (.float (.finite negative m e)) := by
  have htext : (text (.float (.finite negative m e))).toList =
      Shortest.chars (.finite negative m e) := String.toList_ofList
  obtain ⟨cs, hchars, hdigit⟩ := exists_chars negative h
  refine isReadBack_of_succ ?_ fun fuel rest _ hrest => ?_
  · obtain ⟨d, ds, -, rfl⟩ := hdigit
    rw [htext, hchars]
    exact List.append_ne_nil_of_right_ne_nil _ (List.cons_ne_nil _ _)
  · rw [htext, ← readNumber?_double negative h hrest, hchars, List.append_assoc]
    exact readWithin_sign (hdigit.append rest)

theorem isReadBack_null : IsReadBack .null :=
  isReadBack_of_succ (by decide) fun _ _ _ _ => rfl

theorem isReadBack_bool (b : Bool) : IsReadBack (.bool b) := by
  cases b with
  | true => exact isReadBack_of_succ (by decide) fun _ _ _ _ => rfl
  | false => exact isReadBack_of_succ (by decide) fun _ _ _ _ => rfl

theorem isReadBack_literal (h : IsUnpaired t.points) : IsReadBack t.value := by
  have htext : (text t.value).toList = '"' :: (looseInside t ++ ['"']) := by
    rw [text_value, toList_looseLiteral]
  refine isReadBack_of_succ (by rw [htext]; exact List.cons_ne_nil _ _) fun fuel rest _ _ => ?_
  rw [htext, List.cons_append, List.append_assoc, List.singleton_append, readWithin,
    skip_of_not_isSpace (by decide)]
  simp only [read?_looseInside h, Option.map_some]

/-! ### Lists -/

/-- Texts with commas between them. -/
def separated (ts : List String) : List Char := (String.intercalate ", " ts).toList

theorem separated_singleton (t : String) : separated [t] = t.toList := by
  rw [separated, String.toList_intercalate]
  exact List.intercalate_singleton

theorem separated_cons (t u : String) (ts : List String) :
    separated (t :: u :: ts) = t.toList ++ ',' :: ' ' :: separated (u :: ts) := by
  rw [separated, separated, String.toList_intercalate, String.toList_intercalate, List.map_cons,
    List.map_cons, List.intercalate_cons_cons, List.append_assoc]
  rfl

theorem exists_separated (t : String) (ts : List String) :
    ∃ cs, separated (t :: ts) = t.toList ++ cs := by
  cases ts with
  | nil => exact ⟨[], by rw [separated_singleton, List.append_nil]⟩
  | cons u ts => exact ⟨_, separated_cons t u ts⟩

theorem isEnd_cons {c : Char} (h : c = ',' ∨ c = ']' ∨ c = '\x7d') : IsEnd (c :: cs) := by
  intro d hd
  cases hd
  exact h

theorem readItems_separated (rest : List Char) {xs : List Value} (hne : xs ≠ [])
    (h : ∀ x ∈ xs, IsReadBack x) (hfuel : (separated (texts xs)).length < fuel) :
    readItems fuel (separated (texts xs) ++ ']' :: rest) = some (xs, rest) := by
  -- One step of fuel is spent on each item; what is left is enough for the item, since that is no
  -- longer than the text, and for the items behind it.
  induction xs generalizing fuel with
  | nil => exact absurd rfl hne
  | cons x xs ih =>
    obtain ⟨fuel, rfl⟩ : ∃ k, fuel = k + 1 := ⟨fuel - 1, by omega⟩
    obtain ⟨hx, hxs⟩ := List.forall_mem_cons.1 h
    cases xs with
    | nil =>
      rw [texts, texts, separated_singleton] at hfuel ⊢
      rw [readItems, hx fuel _ (by omega) (isEnd_cons (by decide))]
      rfl
    | cons y ys =>
      rw [texts, texts, separated_cons, ← texts] at hfuel ⊢
      rw [List.length_append, List.length_cons, List.length_cons] at hfuel
      have hshort : (separated (texts (y :: ys))).length < fuel := by omega
      have hread := ih (List.cons_ne_nil _ _) hxs hshort
      rw [List.append_assoc, List.cons_append, List.cons_append, readItems,
        hx fuel _ (by omega) (isEnd_cons (by decide))]
      simp only [Option.bind_eq_bind, Option.bind_some,
        skip_of_not_isSpace (show isSpace ',' = false from rfl), readItems_space, hread]

/-- No item is taken for white space or for the end of the list. -/
theorem exists_cons_of_isJson {v : Value} (h : IsJson v) :
    ∃ c cs, (text v).toList = c :: cs ∧ isSpace c = false ∧ c ≠ ']' := by
  have hnumber : ∀ {negative : Bool} {cs : List Char}, HasDigit cs →
      ∃ c ds, Shortest.sign negative ++ cs = c :: ds ∧ isSpace c = false ∧ c ≠ ']' := by
    intro negative cs hcs
    have hdigit : ∀ d < 10, isSpace (Digits.digit d) = false ∧ Digits.digit d ≠ ']' := by decide
    obtain ⟨d, ds, hd, rfl⟩ := hcs
    cases negative with
    | true => exact ⟨_, _, rfl, by decide, by decide⟩
    | false => exact ⟨_, _, rfl, hdigit d hd⟩
  cases h with
  | null => exact ⟨_, _, rfl, by decide, by decide⟩
  | bool b => cases b <;> exact ⟨_, _, rfl, by decide, by decide⟩
  | @int i _ =>
    have htext : (text (.int i)).toList = Digits.signedIn 10 i := String.toList_ofList
    rw [htext, signedIn_eq]
    exact hnumber (isWhole_write _).hasDigit
  | @float negative m e finite =>
    have htext : (text (.float (.finite negative m e))).toList =
        Shortest.chars (.finite negative m e) := String.toList_ofList
    obtain ⟨cs, hchars, hdigit⟩ := exists_chars negative finite
    rw [htext, hchars]
    exact hnumber hdigit
  | @text t _ =>
    rw [text_value]
    exact ⟨_, _, toList_looseLiteral t, by decide, by decide⟩
  | list _ | mapping _ _ _ =>
    rw [text, String.toList_append, String.toList_append, List.append_assoc]
    exact ⟨_, _, rfl, by decide, by decide⟩

theorem isReadBack_list {xs : List Value} (hjson : ∀ x ∈ xs, IsJson x)
    (h : ∀ x ∈ xs, IsReadBack x) : IsReadBack (.list xs) := by
  have htext : (text (.list xs)).toList = '[' :: (separated (texts xs) ++ [']']) := by
    rw [text, String.toList_append, String.toList_append, List.append_assoc]
    rfl
  refine isReadBack_of_succ (by rw [htext]; exact List.cons_ne_nil _ _) fun fuel rest hfuel _ => ?_
  rw [htext, List.length_cons, List.length_append, List.length_singleton] at hfuel
  rw [htext, List.cons_append, List.append_assoc, List.singleton_append, readWithin,
    skip_of_not_isSpace (by decide)]
  cases xs with
  | nil => rfl
  | cons x xs =>
    have hshort : (separated (texts (x :: xs))).length < fuel := by omega
    have hread := readItems_separated rest (List.cons_ne_nil _ _) h hshort
    obtain ⟨c, cs, hc, hspace, hclose⟩ := exists_cons_of_isJson (hjson x List.mem_cons_self)
    obtain ⟨ds, hds⟩ := exists_separated (text x) (texts xs)
    rw [texts, hds, hc, List.cons_append, List.cons_append] at hread ⊢
    simp only [skip_of_not_isSpace hspace, hread]
    split
    · rename_i heq
      exact absurd (List.cons.inj heq).1 hclose
    · rfl

/-! ### Mappings -/

theorem enter_named {x : Value} (h : t ∉ fields.map Prod.fst) :
    Value.enter t.value x (named fields) = named (fields ++ [(t, x)]) := by
  induction fields with
  | nil => rfl
  | cons f fields ih =>
    rw [List.map_cons, List.mem_cons, not_or] at h
    have hkey : ¬Value.sameKey f.1.value t.value = true := by
      rw [sameKey_value_iff]
      exact Ne.symm h.1
    have hcons : named (f :: fields) = (f.1.value, f.2) :: named fields := rfl
    rw [hcons, Value.enter, if_neg hkey, ih h.2]
    rfl

theorem entries_named_cons (k : LooseText) (x : Value) (fields : List (LooseText × Value)) :
    entries (named ((k, x) :: fields)) =
      (looseLiteral k ++ ": " ++ text x) :: entries (named fields) := by
  rw [← nameLiteral_value]
  rfl

theorem toList_entry (k : LooseText) (x : Value) :
    (looseLiteral k ++ ": " ++ text x).toList =
      '"' :: (looseInside k ++ '"' :: ':' :: ' ' :: (text x).toList) := by
  rw [String.toList_append, String.toList_append, toList_looseLiteral, List.append_assoc,
    List.cons_append, List.append_assoc]
  rfl

section Entry

variable {k : LooseText} {x : Value} {before : List (Value × Value)}

/-- An entry is put behind those before it, and the next one follows a comma. -/
theorem readEntries_comma (hk : IsUnpaired k.points) (hx : IsReadBack x)
    (hfuel : (text x).toList.length ≤ fuel) :
    readEntries (fuel + 1) ((looseLiteral k ++ ": " ++ text x).toList ++ ',' :: ' ' :: rest)
        before = readEntries fuel rest (Value.enter k.value x before) := by
  rw [toList_entry, List.cons_append, List.append_assoc, List.cons_append, List.cons_append,
    List.cons_append, readEntries, skip_of_not_isSpace (by decide)]
  simp only [read?_looseInside hk, Option.bind_eq_bind, Option.bind_some, readWithin_space,
    skip_of_not_isSpace (show isSpace ':' = false from rfl),
    skip_of_not_isSpace (show isSpace ',' = false from rfl),
    hx fuel _ hfuel (isEnd_cons (Or.inl rfl)), readEntries_space]

theorem readEntries_close (hk : IsUnpaired k.points) (hx : IsReadBack x)
    (hfuel : (text x).toList.length ≤ fuel) :
    readEntries (fuel + 1) ((looseLiteral k ++ ": " ++ text x).toList ++ '\x7d' :: rest) before =
      some (Value.enter k.value x before, rest) := by
  rw [toList_entry, List.cons_append, List.append_assoc, List.cons_append, List.cons_append,
    List.cons_append, readEntries, skip_of_not_isSpace (by decide)]
  simp only [read?_looseInside hk, Option.bind_eq_bind, Option.bind_some, readWithin_space,
    skip_of_not_isSpace (show isSpace ':' = false from rfl),
    skip_of_not_isSpace (show isSpace '\x7d' = false from rfl),
    hx fuel _ hfuel (isEnd_cons (Or.inr (Or.inr rfl)))]

end Entry

theorem readEntries_separated (rest : List Char) (before : List (LooseText × Value))
    (hne : fields ≠ []) (hdistinct : ((before ++ fields).map Prod.fst).Nodup)
    (hunpaired : ∀ f ∈ fields, IsUnpaired f.1.points) (h : ∀ f ∈ fields, IsReadBack f.2)
    (hfuel : (separated (entries (named fields))).length < fuel) :
    readEntries fuel (separated (entries (named fields)) ++ '\x7d' :: rest) (named before) =
      some (named (before ++ fields), rest) := by
  induction fields generalizing fuel before with
  | nil => exact absurd rfl hne
  | cons f fields ih =>
    obtain ⟨fuel, rfl⟩ : ∃ k, fuel = k + 1 := ⟨fuel - 1, by omega⟩
    obtain ⟨k, x⟩ := f
    obtain ⟨hx, hfields⟩ : IsReadBack x ∧ ∀ f ∈ fields, IsReadBack f.2 := List.forall_mem_cons.1 h
    obtain ⟨hk, hnames⟩ := List.forall_mem_cons.1 hunpaired
    have hnew : k ∉ before.map Prod.fst := by
      intro hk
      rw [List.map_append, List.map_cons] at hdistinct
      exact List.disjoint_of_nodup_append hdistinct hk List.mem_cons_self
    have hentry : (text x).toList.length < (looseLiteral k ++ ": " ++ text x).toList.length := by
      rw [toList_entry, List.length_cons, List.length_append, List.length_cons, List.length_cons,
        List.length_cons]
      omega
    rw [List.append_cons before] at hdistinct ⊢
    cases fields with
    | nil =>
      rw [entries_named_cons, show entries (named []) = [] from rfl, separated_singleton] at hfuel ⊢
      rw [readEntries_close hk hx (by omega), enter_named hnew, List.append_nil]
    | cons g fields =>
      obtain ⟨l, y⟩ := g
      rw [entries_named_cons, entries_named_cons, separated_cons, ← entries_named_cons] at hfuel ⊢
      rw [List.length_append, List.length_cons, List.length_cons] at hfuel
      rw [List.append_assoc, List.cons_append, List.cons_append, readEntries_comma hk hx (by omega),
        enter_named hnew, ih _ (List.cons_ne_nil _ _) hdistinct hnames hfields (by omega)]

theorem isReadBack_mapping (hdistinct : (fields.map Prod.fst).Nodup)
    (hunpaired : ∀ f ∈ fields, IsUnpaired f.1.points) (h : ∀ f ∈ fields, IsReadBack f.2) :
    IsReadBack (.mapping (named fields)) := by
  have htext : (text (.mapping (named fields))).toList =
      '\x7b' :: (separated (entries (named fields)) ++ ['\x7d']) := by
    rw [text, String.toList_append, String.toList_append, List.append_assoc]
    rfl
  refine isReadBack_of_succ (by rw [htext]; exact List.cons_ne_nil _ _) fun fuel rest hfuel _ => ?_
  rw [htext, List.length_cons, List.length_append, List.length_singleton] at hfuel
  rw [htext, List.cons_append, List.append_assoc, List.singleton_append, readWithin,
    skip_of_not_isSpace (by decide)]
  cases fields with
  | nil => rfl
  | cons f fields =>
    have hshort : (separated (entries (named (f :: fields)))).length < fuel := by omega
    have hread := readEntries_separated rest [] (List.cons_ne_nil _ _) hdistinct hunpaired h hshort
    obtain ⟨k, x⟩ := f
    obtain ⟨cs, hcs⟩ := exists_separated (looseLiteral k ++ ": " ++ text x) (entries (named fields))
    rw [entries_named_cons, hcs, toList_entry, List.cons_append, List.cons_append] at hread ⊢
    rw [show named [] = [] from rfl] at hread
    simp only [skip_of_not_isSpace (show isSpace '"' = false from rfl), hread]
    rfl

/-- **A value that JSON knows is read up to its end, whatever follows it.** -/
theorem readWithin_text {v : Value} (h : IsJson v) : IsReadBack v := by
  induction h with
  | null => exact isReadBack_null
  | bool b => exact isReadBack_bool b
  | int _ => exact isReadBack_int _
  | float finite => exact isReadBack_float finite
  | text unpaired => exact isReadBack_literal unpaired
  | list each ih => exact isReadBack_list each ih
  | mapping distinct unpaired _ ih => exact isReadBack_mapping distinct unpaired ih

/-- **A value that JSON knows is read back from its line.** -/
theorem read?_text {v : Value} (h : IsJson v) : read? (text v) = some v := by
  have hread := readWithin_text h (2 * (text v).toList.length + 2) [] (by omega)
    (by intro c hc; cases hc)
  rw [List.append_nil] at hread
  simp only [read?, hread]
  rfl

end Json

end BoardWiring
