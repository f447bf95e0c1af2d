import BoardWiring.Proofs.BindingNames

/-!
# Reading the generated code

What a line of the generated code introduces and uses, read off its text alone.

* `Code.words` are the paths in a text, and `Code.root` is the variable that a path starts from;
* `Code.read` says which name a line introduces, which words of it speak of the bus, and what it
  lists;
* `Code.scan` runs through a text and stops where a word begins like one of the bus; a text that
  it gets through has no word of the bus (`Code.busWords_eq_nil`), and texts are put together from
  quiet ones (`Code.isQuiet_append`);
* `Code.read_statement` reads a statement that gives a value a name.
-/

namespace BoardWiring

namespace Code

/-- A character of a name: a letter or digit of ASCII, a low line or a digit of another script. -/
def isNameChar (c : Char) : Bool :=
  c.isAlphanum || c == '_' || (decide (128 ≤ c.toNat) && Text.isDecimalDigit c)

/-- A character of a path or of a borrowed one. -/
def isPathChar (c : Char) : Bool := isNameChar c || c == ':' || c == '.' || c == '&'

/-- The paths in a text: its longest runs of path characters. -/
def words (cs : List Char) : List (List Char) :=
  (Text.pieces (fun c => !isPathChar c) cs).filter fun w => !w.isEmpty

/-- The variable that a path starts from; a path from the outermost module starts from none. -/
def root (w : List Char) : List Char := (w.dropWhile (· == '&')).takeWhile isNameChar

/-- The variables for the bus. -/
def busNames : List (List Char) := ["i2c".toList, "i2c_bus".toList, "mcp23x17".toList]

/-- The words of a text that start from a variable for the bus. -/
def busWords (cs : List Char) : List (List Char) := (words cs).filter fun w => root w ∈ busNames

/-- The name that a line introduces. -/
def introduced? : List Char → Option (List Char)
  | 'l' :: 'e' :: 't' :: ' ' :: 'm' :: 'u' :: 't' :: ' ' :: cs => some (cs.takeWhile isNameChar)
  | 'l' :: 'e' :: 't' :: ' ' :: cs => some (cs.takeWhile isNameChar)
  | _ => none

/-- What a line computes: what stands behind the equals sign, if it introduces a name. -/
def computed (cs : List Char) : List Char :=
  if (introduced? cs).isSome then (cs.dropWhile (· != '=')).drop 1 else cs

/-- The names that a line lists, if it computes an array. -/
def items? (cs : List Char) : Option (List (List Char)) :=
  if [' ', '['].isPrefixOf (computed cs) then some (words (computed cs)) else none

/-- What is read off a line. -/
structure Reading where
  /-- The name that the line introduces. -/
  introduced : Option (List Char)
  /-- The words of the line that start from a variable for the bus. -/
  bus : List (List Char)
  /-- The names that the line lists, if it computes an array. -/
  items : Option (List (List Char))
  deriving DecidableEq

/-- Reads a line. -/
def read (line : String) : Reading :=
  ⟨introduced? line.toList, busWords (computed line.toList), items? line.toList⟩

/-! ### Words -/

theorem pieces_append_cut {α : Type} {cut : α → Bool} {xs ys : List α} {c : α}
    (hc : cut c = true) :
    Text.pieces cut (xs ++ c :: ys) = Text.pieces cut xs ++ Text.pieces cut ys := by
  induction xs with
  | nil => simp [Text.pieces, hc]
  | cons x xs ih =>
    obtain ⟨p, ps, hp⟩ := List.exists_cons_of_ne_nil (Text.pieces_ne_nil cut xs)
    rw [List.cons_append, Text.pieces, Text.pieces, ih, hp]
    split_ifs
    · rfl
    · rfl

theorem pieces_eq_singleton {α : Type} {cut : α → Bool} {w : List α}
    (h : ∀ c ∈ w, cut c = false) : Text.pieces cut w = [w] := by
  induction w with
  | nil => rfl
  | cons c w ih =>
    rw [List.forall_mem_cons] at h
    simp [Text.pieces, h.1, ih h.2]

/-- Words end at a character that no path has. -/
theorem words_append_cut {xs ys : List Char} {c : Char} (hc : isPathChar c = false) :
    words (xs ++ c :: ys) = words xs ++ words ys := by
  rw [words, pieces_append_cut (by simp [hc]), List.filter_append]
  rfl

theorem words_cons_cut {cs : List Char} {c : Char} (hc : isPathChar c = false) :
    words (c :: cs) = words cs :=
  @words_append_cut [] cs c hc

theorem words_eq_singleton {w : List Char} (hne : w ≠ []) (h : ∀ c ∈ w, isPathChar c = true) :
    words w = [w] := by
  have hkeep : ∀ c ∈ w, (!isPathChar c) = false := fun c hc => by simp [h c hc]
  rw [words, pieces_eq_singleton hkeep]
  simp [hne]

theorem words_intercalate {ws : List (List Char)}
    (h : ∀ w ∈ ws, w ≠ [] ∧ ∀ c ∈ w, isPathChar c = true) :
    words ([',', ' '].intercalate ws) = ws := by
  induction ws with
  | nil => rfl
  | cons w ws ih =>
    obtain ⟨hne, hw⟩ := h w List.mem_cons_self
    have hws := ih fun v hv => h v (List.mem_cons_of_mem _ hv)
    cases ws with
    | nil => rw [List.intercalate_singleton, words_eq_singleton hne hw]
    | cons v vs =>
      rw [List.intercalate_cons_cons, List.append_assoc, List.cons_append,
        words_append_cut (by decide), List.singleton_append, words_cons_cut (by decide), hws,
        words_eq_singleton hne hw, List.singleton_append]

theorem words_list {items : List String}
    (h : ∀ item ∈ items, item.toList ≠ [] ∧ ∀ c ∈ item.toList, isPathChar c = true) :
    words ("[" ++ String.intercalate ", " items ++ "]").toList = items.map String.toList := by
  have htext : ("[" ++ String.intercalate ", " items ++ "]").toList =
      '[' :: ([',', ' '].intercalate (items.map String.toList) ++ [']']) := by
    simp only [String.toList_append, String.toList_intercalate]
    rfl
  have hitems : ∀ w ∈ items.map String.toList, w ≠ [] ∧ ∀ c ∈ w, isPathChar c = true := by
    intro w hw
    obtain ⟨item, hitem, rfl⟩ := List.mem_map.1 hw
    exact h item hitem
  rw [htext, words_cons_cut (by decide), words_append_cut (by decide), words_intercalate hitems]
  exact List.append_nil _

/-! ### Texts without words of the bus -/

/-- Where in a word a run through a text is: before it, behind a first letter that a word of the
bus could have, or further on. -/
inductive Spot where
  | start
  | i
  | m
  | inside
  deriving DecidableEq

/-- One step of the run within a word.  It stops where a word begins like one of the bus, or with
a borrow. -/
def Spot.next (c : Char) : Spot → Option Spot
  | .start =>
    if c = '&' then none else if c = 'i' then some .i else if c = 'm' then some .m
    else some .inside
  | .i => if c = '2' then none else some .inside
  | .m => if c = 'c' then none else some .inside
  | .inside => some .inside

/-- One step of the run. -/
def step (s : Spot) (c : Char) : Option Spot := if isPathChar c then s.next c else some .start

/-- The run through a text, up to where it stops. -/
def scan (s : Spot) (cs : List Char) : Option Spot := cs.foldlM step s

theorem scan_append (s : Spot) (xs ys : List Char) :
    scan s (xs ++ ys) = (scan s xs).bind fun t => scan t ys :=
  List.foldlM_append

theorem scan_inside {cs : List Char} (h : ∀ c ∈ cs, isPathChar c = true) :
    scan .inside cs = some .inside := by
  induction cs with
  | nil => rfl
  | cons c cs ih =>
    rw [List.forall_mem_cons] at h
    have hstep : step .inside c = some .inside := by simp [step, h.1, Spot.next]
    rw [scan, List.foldlM_cons, hstep]
    exact ih h.2

/-- A piece of a text that the run gets through from a spot does not make a word of the bus. -/
def Spot.Clears (w : List Char) : Spot → Prop
  | .start => w.head? ≠ some '&' ∧ w.take 2 ≠ ['i', '2'] ∧ w.take 2 ≠ ['m', 'c']
  | .i => w.head? ≠ some '2'
  | .m => w.head? ≠ some 'c'
  | .inside => True

theorem clears_nil (s : Spot) : s.Clears [] := by
  cases s with
  | start => exact ⟨by simp, by simp, by simp⟩
  | i => simp [Spot.Clears]
  | m => simp [Spot.Clears]
  | inside => trivial

theorem clears_cons {s t : Spot} {c : Char} {w : List Char} (hnext : s.next c = some t)
    (hw : t.Clears w) : s.Clears (c :: w) := by
  cases s with
  | start =>
    simp only [Spot.next] at hnext
    split_ifs at hnext with hborrow hi hm
    · cases hnext
      cases w with
      | nil => simp [Spot.Clears, hborrow]
      | cons d w => simpa [Spot.Clears, hi] using hw
    · cases hnext
      cases w with
      | nil => simp [Spot.Clears, hborrow]
      | cons d w => simpa [Spot.Clears, hm] using hw
    · cases w with
      | nil => simp [Spot.Clears, hborrow]
      | cons d w => simp [Spot.Clears, hborrow, hi, hm]
  | i =>
    simp only [Spot.next] at hnext
    split_ifs at hnext with htwo
    simpa [Spot.Clears] using htwo
  | m =>
    simp only [Spot.next] at hnext
    split_ifs at hnext with hletter
    simpa [Spot.Clears] using hletter
  | inside => trivial

/-- No piece of a text that the run gets through makes a word of the bus. -/
theorem clears_of_scan {s : Spot} {cs : List Char} (h : (scan s cs).isSome = true) :
    s.Clears ((Text.pieces (fun c => !isPathChar c) cs).headD []) ∧
      ∀ w ∈ (Text.pieces (fun c => !isPathChar c) cs).tail, Spot.start.Clears w := by
  induction cs generalizing s with
  | nil => exact ⟨clears_nil s, fun _ hw => by cases hw⟩
  | cons c cs ih =>
    obtain ⟨w, ws, hw⟩ := List.exists_cons_of_ne_nil
      (Text.pieces_ne_nil (fun c => !isPathChar c) cs)
    cases hstep : step s c with
    | none => simp [scan, hstep] at h
    | some t =>
      -- The first piece goes on with the word that the run is in; the others begin afresh.
      obtain ⟨hhead, htail⟩ := ih (s := t) (by simpa [scan, hstep] using h)
      rw [hw] at hhead htail
      rw [Text.pieces, hw]
      cases hc : isPathChar c with
      | true => exact ⟨clears_cons (by simpa [step, hc] using hstep) hhead, htail⟩
      | false =>
        have ht : t = .start := by simpa [step, hc] using hstep.symm
        subst ht
        exact ⟨clears_nil s, List.forall_mem_cons.2 ⟨hhead, htail⟩⟩

theorem root_not_mem_busNames {w : List Char} (h : Spot.start.Clears w) : root w ∉ busNames := by
  obtain ⟨hborrow, hi, hm⟩ := h
  have hroot : root w <+: w := by
    cases w with
    | nil => exact List.prefix_rfl
    | cons c w =>
      have hc : (c == '&') = false := by simpa using hborrow
      rw [root, List.dropWhile_cons, hc]
      exact List.takeWhile_prefix isNameChar
  have hnames : ∀ n ∈ busNames, 2 ≤ n.length ∧ (n.take 2 = ['i', '2'] ∨ n.take 2 = ['m', 'c']) := by
    decide
  intro hmem
  obtain ⟨hlong, htwo⟩ := hnames _ hmem
  obtain ⟨rest, hrest⟩ := hroot
  have htake : w.take 2 = (root w).take 2 := by
    conv_lhs => rw [← hrest]
    exact List.take_append_of_le_length hlong
  rw [← htake] at htwo
  exact htwo.elim hi hm

/-- **A text that the run gets through has no word of the bus.** -/
theorem busWords_eq_nil {cs : List Char} (h : (scan .start cs).isSome = true) :
    busWords cs = [] := by
  obtain ⟨hhead, htail⟩ := clears_of_scan h
  have hclear : ∀ w ∈ Text.pieces (fun c => !isPathChar c) cs, Spot.start.Clears w := by
    obtain ⟨v, vs, hv⟩ := List.exists_cons_of_ne_nil
      (Text.pieces_ne_nil (fun c => !isPathChar c) cs)
    rw [hv] at hhead htail ⊢
    exact List.forall_mem_cons.2 ⟨hhead, htail⟩
  rw [busWords, List.filter_eq_nil_iff]
  intro w hw
  simpa using root_not_mem_busNames (hclear w (List.mem_filter.1 hw).1)

/-- The run is before a word, or past its beginning. -/
def settled : Option Spot → Bool
  | some .start => true
  | some .inside => true
  | _ => false

/-- The run gets through a text both from before a word and from past the beginning of one. -/
def isQuiet (s : String) : Bool :=
  settled (scan .start s.toList) && settled (scan .inside s.toList)

theorem isQuiet_iff {s : String} :
    isQuiet s = true ↔ ∀ t, settled (some t) = true → settled (scan t s.toList) = true := by
  rw [isQuiet, Bool.and_eq_true]
  constructor
  · rintro ⟨hstart, hinside⟩ t ht
    cases t with
    | start => exact hstart
    | inside => exact hinside
    | i => cases ht
    | m => cases ht
  · exact fun h => ⟨h .start rfl, h .inside rfl⟩

theorem isQuiet_append {s t : String} (hs : isQuiet s = true) (ht : isQuiet t = true) :
    isQuiet (s ++ t) = true := by
  rw [isQuiet_iff] at hs ht ⊢
  intro r hr
  have hmid := hs r hr
  rw [String.toList_append, scan_append]
  cases hscan : scan r s.toList with
  | none =>
    rw [hscan] at hmid
    cases hmid
  | some q =>
    rw [hscan] at hmid
    exact ht q hmid

theorem isQuiet_of_forall {s : String} (h : ∀ c ∈ s.toList, c ≠ '&' ∧ c ≠ 'i' ∧ c ≠ 'm') :
    isQuiet s = true := by
  rw [isQuiet_iff]
  generalize s.toList = cs at h
  induction cs with
  | nil => exact fun _ ht => ht
  | cons c cs ih =>
    rw [List.forall_mem_cons] at h
    obtain ⟨⟨hborrow, hi, hm⟩, hcs⟩ := h
    intro t ht
    -- No character takes the run to a first letter, so it stays where it can go on.
    have hstep : ∃ r, step t c = some r ∧ settled (some r) = true := by
      cases hc : isPathChar c with
      | false => exact ⟨.start, by simp [step, hc], rfl⟩
      | true =>
        refine ⟨.inside, ?_, rfl⟩
        cases t with
        | start => simp [step, hc, Spot.next, hborrow, hi, hm]
        | inside => simp [step, hc, Spot.next]
        | i => cases ht
        | m => cases ht
    obtain ⟨r, hr, hsettled⟩ := hstep
    have hscan : scan t (c :: cs) = scan r cs := by simp [scan, hr]
    rw [hscan]
    exact ih hcs r hsettled

theorem busWords_of_isQuiet {s : String} (h : isQuiet s = true) : busWords s.toList = [] := by
  have hsettled := isQuiet_iff.1 h .start rfl
  refine busWords_eq_nil ?_
  cases hscan : scan .start s.toList with
  | none =>
    rw [hscan] at hsettled
    cases hsettled
  | some t => rfl

/-! ### Lines -/

theorem busWords_append_cut {xs ys : List Char} {c : Char} (hc : isPathChar c = false) :
    busWords (xs ++ c :: ys) = busWords xs ++ busWords ys := by
  rw [busWords, words_append_cut hc, List.filter_append]
  rfl

/-- A line that is indented and quiet does nothing that is read off. -/
theorem read_indented {s : String} (h : isQuiet s = true) :
    read ("    " ++ s) = ⟨none, [], none⟩ := by
  have hline : ("    " ++ s).toList = ' ' :: ' ' :: ' ' :: ' ' :: s.toList := String.toList_append
  have hbus : busWords ("    " ++ s).toList = [] :=
    busWords_of_isQuiet (isQuiet_append (by decide) h)
  have hnone : introduced? ("    " ++ s).toList = none := by
    rw [hline]
    rfl
  have hcomputed : computed ("    " ++ s).toList = ("    " ++ s).toList := by
    rw [computed, hnone]
    rfl
  have hitems : items? ("    " ++ s).toList = none := by
    rw [items?, hcomputed, hline]
    rfl
  rw [read, hnone, hcomputed, hbus, hitems]

theorem isNameChar_of_isBindingChar {c : Char} (h : Name.isBindingChar c = true) :
    isNameChar c = true := by
  have hcases : (c.isLower = true ∨ c.isDigit = true) ∨ c = '_' := by
    simpa [Name.isBindingChar] using h
  rcases hcases with (h | h) | rfl
  · simp [isNameChar, Name.isAlphanum_eq, h]
  · simp [isNameChar, Name.isAlphanum_eq, h]
  · decide

/-- What a line uses stands behind its equals sign, if it introduces a name. -/
theorem read_of_split {line : String} {name before after : List Char}
    (hline : line.toList = before ++ '=' :: after) (hbefore : before.all (· != '=') = true)
    (hname : introduced? line.toList = some name) :
    read line = ⟨some name, busWords after,
      if [' ', '['].isPrefixOf after then some (words after) else none⟩ := by
  have hcomputed : computed line.toList = after := by
    rw [computed, hname, hline, List.dropWhile_append_of_pos (List.all_eq_true.1 hbefore)]
    rfl
  rw [read, items?, hname, hcomputed]

theorem introduced?_binding {name : String} (hname : Name.IsBinding name) (cs : List Char) :
    introduced? ('l' :: 'e' :: 't' :: ' ' :: (name.toList ++ ' ' :: cs)) = some name.toList := by
  have hchars : ∀ c ∈ name.toList, isNameChar c = true := fun c hc =>
    isNameChar_of_isBindingChar (hname.chars c hc)
  -- A name that began like the keyword for variables would be read past that keyword.
  have hnomut : ∀ ds, name.toList ++ ' ' :: cs ≠ 'm' :: 'u' :: ds := by
    intro ds hds
    have htake := congrArg (List.take 2) hds
    rw [List.take_append_of_le_length hname.long] at htake
    have hmut : List.take 2 ('m' :: 'u' :: ds) ∈ Name.reserved := by simp [Name.reserved]
    exact hname.apart (htake ▸ hmut)
  unfold introduced?
  split
  · rename_i heq
    simp only [List.cons.injEq, true_and] at heq
    exact absurd heq (hnomut _)
  · rename_i heq
    simp only [List.cons.injEq, true_and] at heq
    rw [← heq, List.takeWhile_append_of_pos hchars, List.takeWhile_cons_of_neg (by decide),
      List.append_nil]
  · rename_i hno
    exact absurd rfl (hno _)

/-- A statement that gives a value a name: the name is introduced, and the rest is read off the
value. -/
theorem read_statement {name : String} (hname : Name.IsBinding name) (value : String) :
    read ("let " ++ name ++ " = " ++ value ++ ";") =
      ⟨some name.toList, busWords value.toList,
        if value.toList.head? = some '[' then some (words value.toList) else none⟩ := by
  have hline : ("let " ++ name ++ " = " ++ value ++ ";").toList =
      'l' :: 'e' :: 't' :: ' ' ::
        (name.toList ++ ' ' :: '=' :: ' ' :: (value.toList ++ [';'])) := by
    simp only [String.toList_append, List.append_assoc]
    rfl
  have hintroduced : introduced? ("let " ++ name ++ " = " ++ value ++ ";").toList =
      some name.toList := by
    rw [hline]
    exact introduced?_binding hname _
  have hkeep : ('l' :: 'e' :: 't' :: ' ' :: (name.toList ++ [' '])).all (· != '=') = true := by
    have hname' : name.toList.all (· != '=') = true := by
      rw [List.all_eq_true]
      intro c hc
      have hbinding := hname.chars c hc
      rw [bne_iff_ne]
      rintro rfl
      cases hbinding
    simp [hname']
  have hsplit : ("let " ++ name ++ " = " ++ value ++ ";").toList =
      ('l' :: 'e' :: 't' :: ' ' :: (name.toList ++ [' '])) ++
        '=' :: ' ' :: (value.toList ++ [';']) := by
    rw [hline]
    simp
  have hwords : words (' ' :: (value.toList ++ [';'])) = words value.toList := by
    rw [words_cons_cut (by decide), words_append_cut (by decide)]
    exact List.append_nil _
  have hbus : busWords (' ' :: (value.toList ++ [';'])) = busWords value.toList := by
    rw [busWords, hwords, busWords]
  have hopen : [' ', '['].isPrefixOf (' ' :: (value.toList ++ [';'])) =
      decide (value.toList.head? = some '[') := by
    cases value.toList with
    | nil => rfl
    | cons c cs =>
      by_cases hc : c = '['
      · simp [List.isPrefixOf, hc]
      · simp [List.isPrefixOf, hc, Ne.symm hc]
  rw [read_of_split hsplit hkeep hintroduced, hbus, hwords, hopen]
  simp only [decide_eq_true_eq]

end Code

end BoardWiring
