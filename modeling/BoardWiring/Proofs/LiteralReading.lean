import BoardWiring.Diagnostic
import BoardWiring.Proofs.Numerals
import Mathlib.Data.List.Chain

/-!
# Reading literals

A literal is written by the rules of JSON and stands in the generated code, where it is read by the
rules of that language.  By both it gives back the text that it was written for.  The rules of the
code know fewer escapes, so that for them the text must hold no control characters but three.

* `JsonString.IsEscaped` says that no quote of a text ends a literal early;
* `JsonString.decode?` reads a literal as JSON, and `JsonString.decode?_literal` says that this
  undoes `JsonString.literal`;
* `CodeString.decode?` reads a literal of the generated code, and `CodeString.decode?_literal` says
  for which texts this undoes `JsonString.literal`, and that the literals of all others are refused.
-/

namespace BoardWiring

namespace JsonString

/-! ### The inside of a literal -/

/-- What stands between the quotes of the literal for a text. -/
def inside (s : String) : List Char := s.toList.flatMap escape

theorem toList_literal (s : String) : (literal s).toList = '"' :: (inside s ++ ['"']) := by
  rw [literal, String.toList_ofList, literalChars, inside, List.cons_append]

/-- No quote of a text is bare: it is a run of characters that are neither a quote nor a backslash,
and of backslashes with the characters that they escape. -/
inductive IsEscaped : List Char → Prop where
  | nil : IsEscaped []
  | plain {c : Char} {cs : List Char} (quote : c ≠ '"') (backslash : c ≠ '\\')
      (rest : IsEscaped cs) : IsEscaped (c :: cs)
  | pair {c : Char} {cs : List Char} (rest : IsEscaped cs) : IsEscaped ('\\' :: c :: cs)

theorem IsEscaped.append {cs ds : List Char} (hcs : IsEscaped cs) (hds : IsEscaped ds) :
    IsEscaped (cs ++ ds) := by
  induction hcs with
  | nil => exact hds
  | plain quote backslash _ ih => exact .plain quote backslash ih
  | pair _ ih => exact .pair ih

variable {c : Char} {s : String}

/-- A character is written by a backslash and a letter, by its number, or as itself. -/
theorem escape_cases {P : List Char → Prop} (c : Char)
    (short : ∀ e, shortEscape? c = some e → P ['\\', e])
    (numeric : shortEscape? c = none → c.toNat < 0x20 → P (unitEscape c.toNat))
    (itself : shortEscape? c = none → 0x20 ≤ c.toNat → P [c]) : P (escape c) := by
  unfold escape
  split
  · exact short _ ‹_›
  · split_ifs with hcontrol
    · exact numeric ‹_› hcontrol
    · exact itself ‹_› (Nat.le_of_not_lt hcontrol)

/-- The characters that have a short escape, with the letters of these. -/
def shortEscapes : List (Char × Char) :=
  [('"', '"'), ('\\', '\\'), ('\n', 'n'), ('\r', 'r'), ('\t', 't'), ('\x0c', 'f'),
    ('\x08', 'b')]

theorem shortEscape?_eq_some_iff {e : Char} :
    shortEscape? c = some e ↔ (c, e) ∈ shortEscapes := by
  simp only [shortEscapes, List.mem_cons, Prod.mk.injEq, List.not_mem_nil, or_false]
  constructor
  · intro h
    unfold shortEscape? at h
    split_ifs at h with h1 h2 h3 h4 h5 h6 h7
    all_goals
      cases h
      simp_all
  · rintro (⟨rfl, rfl⟩ | ⟨rfl, rfl⟩ | ⟨rfl, rfl⟩ | ⟨rfl, rfl⟩ | ⟨rfl, rfl⟩ | ⟨rfl, rfl⟩ |
      ⟨rfl, rfl⟩)
    all_goals rfl

theorem ne_of_plain (h : shortEscape? c = none) : c ≠ '"' ∧ c ≠ '\\' := by
  constructor
  · rintro rfl
    cases h
  · rintro rfl
    cases h

theorem hexFixed_unit {n : Nat} (h : n < 0x10000) :
    Digits.hexFixed 4 n = [Digits.digit (n / 4096), Digits.digit (n / 256 % 16),
      Digits.digit (n / 16 % 16), Digits.digit (n % 16)] := by
  have hfirst : Digits.hexFixed 1 (n / 4096) = [Digits.digit (n / 4096)] := by
    rw [Digits.hexFixed, Digits.write_of_lt (by omega)]
    rfl
  rw [Digits.hexFixed_succ (by decide), Digits.hexFixed_succ (by decide),
    Digits.hexFixed_succ (by decide)]
  simp only [Nat.div_div_eq_div_mul, Nat.reduceMul, hfirst, List.cons_append, List.nil_append]

theorem hexFixed_control {n : Nat} (h : n < 0x20) :
    Digits.hexFixed 4 n = ['0', '0', Digits.digit (n / 16), Digits.digit (n % 16)] := by
  have hfirst : n / 4096 = 0 := by omega
  have hsecond : n / 256 % 16 = 0 := by omega
  have hthird : n / 16 % 16 = n / 16 := by omega
  rw [hexFixed_unit (by omega), hfirst, hsecond, hthird]
  rfl

/-- The digits of a number are no part of another escape. -/
theorem forall_mem_hexFixed {P : Char → Prop} (h : ∀ d < 16, P (Digits.digit d)) (n : Nat) :
    ∀ c ∈ Digits.hexFixed 4 n, P c :=
  Digits.forall_mem_padLeft (h 0 (by decide)) (Digits.forall_mem_write (by decide) h n) 4

theorem isEscaped_of_forall {cs : List Char} (h : ∀ c ∈ cs, c ≠ '"' ∧ c ≠ '\\') : IsEscaped cs := by
  induction cs with
  | nil => exact .nil
  | cons c cs ih =>
    obtain ⟨⟨hquote, hbackslash⟩, hcs⟩ := List.forall_mem_cons.1 h
    exact .plain hquote hbackslash (ih hcs)

theorem isEscaped_escape (c : Char) : IsEscaped (escape c) := by
  refine escape_cases c (fun e _ => ?_) (fun _ _ => ?_) fun hplain _ => ?_
  · exact .pair .nil
  · exact .pair (isEscaped_of_forall (forall_mem_hexFixed (by decide) _))
  · exact .plain (ne_of_plain hplain).1 (ne_of_plain hplain).2 .nil

/-- **No quote is bare inside a literal.** -/
theorem isEscaped_inside (s : String) : IsEscaped (inside s) := by
  rw [inside]
  induction s.toList with
  | nil => exact .nil
  | cons c cs ih => exact (isEscaped_escape c).append ih

theorem visible_escape (c : Char) : ∀ d ∈ escape c, 0x20 ≤ d.toNat := by
  have hletters : ∀ r ∈ shortEscapes, 0x20 ≤ r.2.toNat := by decide
  refine escape_cases (P := fun w => ∀ d ∈ w, 0x20 ≤ d.toNat) c
    (fun e hshort => ?_) (fun _ _ => ?_) fun _ hvisible => ?_
  · exact List.forall_mem_cons.2 ⟨by decide, List.forall_mem_singleton.2
      (hletters _ (shortEscape?_eq_some_iff.1 hshort))⟩
  · exact List.forall_mem_cons.2 ⟨by decide, List.forall_mem_cons.2 ⟨by decide,
      forall_mem_hexFixed (by decide) _⟩⟩
  · exact List.forall_mem_singleton.2 hvisible

/-- **There are no control characters inside a literal.** -/
theorem visible_inside (s : String) : ∀ c ∈ inside s, 0x20 ≤ c.toNat := by
  intro c hc
  obtain ⟨d, -, hd⟩ := List.mem_flatMap.1 hc
  exact visible_escape d c hd

/-! ### Reading as JSON -/

theorem hex4?_hexFixed {n : Nat} (h : n < 0x10000) (rest : List Char) :
    hex4? (Digits.hexFixed 4 n ++ rest) = some (n, rest) := by
  have hfirst := Digits.hexValue?_digit (d := n / 4096) (by omega)
  have hsecond := Digits.hexValue?_digit (d := n / 256 % 16) (by omega)
  have hthird := Digits.hexValue?_digit (d := n / 16 % 16) (by omega)
  have hfourth := Digits.hexValue?_digit (d := n % 16) (by omega)
  have hvalue : Digits.value 16 [n / 4096, n / 256 % 16, n / 16 % 16, n % 16] = n := by
    simp only [Digits.value, List.foldl_cons, List.foldl_nil]
    omega
  rw [hexFixed_unit h]
  simp [hex4?, hfirst, hsecond, hthird, hfourth, hvalue]

theorem isHigh_iff {n : Nat} : isHigh n = true ↔ 0xd800 ≤ n ∧ n < 0xdc00 := by
  rw [isHigh, Bool.and_eq_true, decide_eq_true_eq, decide_eq_true_eq]

theorem isLow_iff {n : Nat} : isLow n = true ↔ 0xdc00 ≤ n ∧ n < 0xe000 := by
  rw [isLow, Bool.and_eq_true, decide_eq_true_eq, decide_eq_true_eq]

/-- A character is no half of a pair. -/
theorem isHigh_char (c : Char) : isHigh c.toNat = false := by
  have hvalid : c.toNat < 0xd800 ∨ 0xdfff < c.toNat ∧ c.toNat < 0x110000 := c.valid
  rw [← Bool.not_eq_true, isHigh_iff]
  omega

theorem isLow_char (c : Char) : isLow c.toNat = false := by
  have hvalid : c.toNat < 0xd800 ∨ 0xdfff < c.toNat ∧ c.toNat < 0x110000 := c.valid
  rw [← Bool.not_eq_true, isLow_iff]
  omega

theorem ofCode_code (p : CodePoint) : CodePoint.ofCode p.code = p := by
  cases p with
  | half n =>
    have hn := n.isLt
    have hrange : 0xd800 ≤ 0xd800 + n.val ∧ 0xd800 + n.val < 0xe000 := by omega
    simp [CodePoint.ofCode, CodePoint.code, hrange]
  | char c =>
    have hvalid : c.toNat < 0xd800 ∨ 0xdfff < c.toNat ∧ c.toNat < 0x110000 := c.valid
    have hrange : ¬(0xd800 ≤ c.toNat ∧ c.toNat < 0xe000) := by omega
    simp [CodePoint.ofCode, CodePoint.code, hrange, Char.ofNat_toNat]

theorem readPoint?_unitEscape {p : CodePoint} (h : p.code < 0x10000) {rest : List Char}
    (hlone : isHigh p.code → lowHalf? rest = none) :
    readPoint? (unitEscape p.code ++ rest) = some (p, rest) := by
  have hhalf : (if isHigh p.code then lowHalf? rest else none) = none := by
    split_ifs with hhigh
    · exact hlone hhigh
    · rfl
  change readPoint? ('\\' :: 'u' :: (Digits.hexFixed 4 p.code ++ rest)) = some (p, rest)
  rw [readPoint?, hex4?_hexFixed h, Option.map_some, readUnit, hhalf, ofCode_code]

theorem readPoint?_short {e : Char} (h : shortEscape? c = some e) (rest : List Char) :
    readPoint? (['\\', e] ++ rest) = some (.char c, rest) := by
  have hunescape : ∀ r ∈ shortEscapes, unescape? r.2 = some r.1 := by decide
  have hread : unescape? e = some c := hunescape _ (shortEscape?_eq_some_iff.1 h)
  have hletter : e ≠ 'u' := by
    rintro rfl
    cases hread
  simp [readPoint?, hread]

theorem readPoint?_plain (h : shortEscape? c = none) (rest : List Char) :
    readPoint? ([c] ++ rest) = some (.char c, rest) := by
  simp [readPoint?, (ne_of_plain h).2]

theorem lowHalf?_unitEscape {n : Nat} (h : n < 0x10000) (rest : List Char) :
    lowHalf? (unitEscape n ++ rest) = if isLow n then some (n, rest) else none := by
  change lowHalf? ('\\' :: 'u' :: (Digits.hexFixed 4 n ++ rest)) = _
  rw [lowHalf?, hex4?_hexFixed h]
  cases hlow : isLow n <;> simp [hlow]

theorem lowHalf?_short {e : Char} (h : shortEscape? c = some e) (rest : List Char) :
    lowHalf? (['\\', e] ++ rest) = none := by
  have hletters : ∀ r ∈ shortEscapes, r.2 ≠ 'u' := by decide
  have hletter : e ≠ 'u' := hletters _ (shortEscape?_eq_some_iff.1 h)
  simp [lowHalf?, hletter]

theorem lowHalf?_plain (h : shortEscape? c = none) (rest : List Char) :
    lowHalf? ([c] ++ rest) = none := by
  simp [lowHalf?, (ne_of_plain h).2]

/-- No low half stands directly behind a high one. -/
def IsUnpaired (ps : List CodePoint) : Prop :=
  ps.IsChain fun p q => ¬(isHigh p.code = true ∧ isLow q.code = true)

instance (ps : List CodePoint) : Decidable (IsUnpaired ps) :=
  inferInstanceAs (Decidable (List.IsChain _ ps))

theorem isUnpaired_map_char (cs : List Char) : IsUnpaired (cs.map .char) := by
  refine (List.isChain_map _).2 (List.Pairwise.isChain (List.pairwise_of_forall fun c d => ?_))
  simp [CodePoint.code, isHigh_char]

/-- A way to write the code points of a literal, as which the members of a type count, so that each
of them is read back. -/
structure IsWriting {α : Type} (point : α → CodePoint) (f : α → List Char) : Prop where
  /-- A code point is read as it was written, unless it is the first half of a pair. -/
  readPoint? : ∀ x rest, (isHigh (point x).code → lowHalf? rest = none) →
    readPoint? (f x ++ rest) = some (point x, rest)
  /-- Only a low half is written as one. -/
  lowHalf? : ∀ x rest, isLow (point x).code = false → lowHalf? (f x ++ rest) = none
  /-- What is written for a code point is not taken for the end of the literal. -/
  exists_cons : ∀ x, ∃ d ds, f x = d :: ds ∧ d ≠ '"'

theorem isWriting_escape : IsWriting .char escape := by
  refine ⟨fun c rest _ => ?_, fun c rest _ => ?_, fun c => ?_⟩
  · refine escape_cases (P := fun w => readPoint? (w ++ rest) = some (.char c, rest)) c
      (fun _ hshort => readPoint?_short hshort rest) (fun _ hcontrol => ?_)
      fun hplain _ => readPoint?_plain hplain rest
    have hcode : (CodePoint.char c).code < 0x10000 := Nat.lt_trans hcontrol (by decide)
    refine readPoint?_unitEscape hcode fun hhigh => ?_
    rw [CodePoint.code, isHigh_char] at hhigh
    cases hhigh
  · refine escape_cases (P := fun w => JsonString.lowHalf? (w ++ rest) = none) c
      (fun _ hshort => lowHalf?_short hshort rest) (fun _ hcontrol => ?_)
      fun hplain _ => lowHalf?_plain hplain rest
    rw [lowHalf?_unitEscape (by omega), isLow_char]
    rfl
  · refine escape_cases (P := fun w => ∃ d ds, w = d :: ds ∧ d ≠ '"') c
      (fun e _ => ?_) (fun _ _ => ?_) fun hplain _ => ?_
    · exact ⟨_, _, rfl, by decide⟩
    · exact ⟨_, _, rfl, by decide⟩
    · exact ⟨_, _, rfl, (ne_of_plain hplain).1⟩

theorem exists_escape (c : Char) : ∃ d ds, escape c = d :: ds ∧ d ≠ '"' :=
  isWriting_escape.exists_cons c

namespace IsWriting

variable {α : Type} {point : α → CodePoint} {f : α → List Char}

/-- A high half is followed by no low one, be it that another code point follows or the quote. -/
theorem lowHalf?_rest (hf : IsWriting point f) {x : α} {xs : List α}
    (hpairs : IsUnpaired ((x :: xs).map point)) (rest : List Char)
    (hhigh : isHigh (point x).code = true) :
    JsonString.lowHalf? (xs.flatMap f ++ '"' :: rest) = none := by
  cases xs with
  | nil => rfl
  | cons y ys =>
    have hnext : isLow (point y).code = false := by
      have := (List.isChain_cons_cons.1 hpairs).1
      simpa [hhigh] using this
    rw [List.flatMap_cons, List.append_assoc]
    exact hf.lowHalf? y _ hnext

/-- Reading takes as many steps as there are code points, and one for the quote. -/
theorem readWithin (hf : IsWriting point f) (xs : List α) (rest : List Char)
    (hpairs : IsUnpaired (xs.map point)) {fuel : Nat} (h : xs.length < fuel) :
    readWithin fuel (xs.flatMap f ++ '"' :: rest) = some (xs.map point, rest) := by
  induction xs generalizing fuel with
  | nil =>
    obtain ⟨fuel, rfl⟩ := Nat.exists_eq_add_of_lt h
    rfl
  | cons x xs ih =>
    obtain ⟨fuel, rfl⟩ : ∃ k, fuel = k + 1 := ⟨fuel - 1, by omega⟩
    have hread := hf.readPoint? x (xs.flatMap f ++ '"' :: rest)
      (hf.lowHalf?_rest hpairs rest)
    obtain ⟨d, ds, hwriting, hd⟩ := hf.exists_cons x
    rw [List.flatMap_cons, List.append_assoc]
    rw [hwriting, List.cons_append] at hread ⊢
    have hrest := ih (List.isChain_of_isChain_cons hpairs) (Nat.lt_of_succ_lt_succ h)
    simp [JsonString.readWithin, hd, hread, hrest]

theorem length_le (hf : IsWriting point f) (xs : List α) :
    xs.length ≤ (xs.flatMap f).length := by
  induction xs with
  | nil => exact Nat.le_refl 0
  | cons x xs ih =>
    obtain ⟨d, ds, hwriting, -⟩ := hf.exists_cons x
    rw [List.flatMap_cons, List.length_append, hwriting, List.length_cons, List.length_cons]
    omega

/-- **A literal is read up to its closing quote.** -/
theorem read? (hf : IsWriting point f) (xs : List α) (rest : List Char)
    (hpairs : IsUnpaired (xs.map point)) :
    read? (xs.flatMap f ++ '"' :: rest) = some (⟨xs.map point⟩, rest) := by
  have hle := hf.length_le xs
  rw [JsonString.read?, hf.readWithin xs rest hpairs, Option.map_some]
  rw [List.length_append]
  omega

end IsWriting

/-- As many steps as a literal is long are enough to read it. -/
theorem length_lt_inside (s : String) :
    s.toList.length < (inside s ++ ['"']).length + 1 := by
  have hle : s.toList.length ≤ (inside s).length := isWriting_escape.length_le s.toList
  rw [List.length_append]
  omega

/-- The text of a literal, read as JSON; a control character must not stand in it as itself. -/
def decode? (literal : String) : Option String :=
  match literal.toList with
  | '"' :: cs =>
    if cs.all fun c => decide (0x20 ≤ c.toNat) then
      match read? cs with
      | some (text, []) => text.whole?
      | _ => none
    else none
  | _ => none

/-- **A literal is read back as JSON, whatever the text is.** -/
theorem decode?_literal (s : String) : decode? (literal s) = some s := by
  have hread : read? (inside s ++ ['"']) = some (.ofString s, []) :=
    isWriting_escape.read? s.toList [] (isUnpaired_map_char s.toList)
  have hvisible : (inside s ++ ['"']).all (fun c => decide (0x20 ≤ c.toNat)) = true := by
    simpa using visible_inside s
  rw [decode?, toList_literal]
  simp only [hvisible, hread, if_true, LooseText.whole?_ofString]

theorem literal_injective : Function.Injective literal := by
  intro s t h
  have hdecode := congrArg decode? h
  rwa [decode?_literal, decode?_literal, Option.some.injEq] at hdecode

end JsonString

/-! ### Reading as code -/

namespace CodeString

/-- White space that is skipped behind a line that is continued. -/
def isGap (c : Char) : Bool := c == ' ' || c == '\t' || c == '\n' || c == '\r'

/-- The character that a two-character escape stands for. -/
def unescape? (c : Char) : Option Char :=
  if c = 'n' then some '\n'
  else if c = 'r' then some '\r'
  else if c = 't' then some '\t'
  else if c = '0' then some '\x00'
  else if c = '\\' ∨ c = '"' ∨ c = '\'' then some c
  else none

/-- The character for two hexadecimal digits, which must be one of ASCII. -/
def byte? (high low : Char) : Option Char := do
  let m ← Digits.hexValue? high
  let n ← Digits.hexValue? low
  if m < 8 then some (Char.ofNat (16 * m + n)) else none

/-- The character for one to six hexadecimal digits, with low lines behind any of them. -/
def scalar? (cs : List Char) : Option Char := do
  let ds := cs.filter (· != '_')
  let values ← ds.mapM Digits.hexValue?
  let n := Digits.value 16 values
  if cs.head? ≠ some '_' ∧ ds ≠ [] ∧ ds.length ≤ 6 ∧ n.isValidChar then some (Char.ofNat n)
  else none

/-- What the first character or escape of the inside of a literal stands for, and what follows it.
The end of a line behind a backslash stands for nothing; a carriage return is part of one. -/
def step? : List Char → Option (List Char × List Char)
  | '\\' :: '\n' :: rest => some ([], rest.dropWhile isGap)
  | '\\' :: '\r' :: '\n' :: rest => some ([], rest.dropWhile isGap)
  | '\\' :: 'x' :: high :: low :: rest => (byte? high low).map fun c => ([c], rest)
  | '\\' :: 'u' :: '\x7b' :: rest =>
    match rest.dropWhile (· != '\x7d') with
    | [] => none
    | _ :: after => (scalar? (rest.takeWhile (· != '\x7d'))).map fun c => ([c], after)
  | '\\' :: c :: rest => (unescape? c).map fun d => ([d], rest)
  | '\\' :: [] => none
  | '\r' :: '\n' :: rest => some (['\n'], rest)
  | '\r' :: _ => none
  | c :: rest => some ([c], rest)
  | [] => none

/-- The inside of a literal up to its closing quote, in at most `fuel` steps, and what follows the
quote. -/
def readWithin : Nat → List Char → Option (List Char × List Char)
  | 0, _ => none
  | _ + 1, '"' :: rest => some ([], rest)
  | fuel + 1, cs =>
    match step? cs with
    | none => none
    | some (text, rest) => (readWithin fuel rest).map fun r => (text ++ r.1, r.2)

/-- The text of a literal. -/
def decode? (literal : String) : Option String :=
  match literal.toList with
  | '"' :: cs =>
    match readWithin (cs.length + 1) cs with
    | some (text, []) => some (String.ofList text)
    | _ => none
  | _ => none

example : decode? "\"a\\x41\\u\x7b20_ac\x7d\\\n  b\"" = some "aA\u20acb" := by decide

/-- A character that is written the same by the rules of both: of the control characters, only tabs,
line feeds and carriage returns. -/
def IsSharedChar (c : Char) : Prop := 0x20 ≤ c.toNat ∨ c = '\t' ∨ c = '\n' ∨ c = '\r'

instance (c : Char) : Decidable (IsSharedChar c) := inferInstanceAs (Decidable (_ ∨ _))

/-- Two of the short escapes are none of the code. -/
theorem step?_short {c e : Char} (h : JsonString.shortEscape? c = some e) (rest : List Char) :
    step? ('\\' :: e :: rest) = if IsSharedChar c then some ([c], rest) else none := by
  have hmem := JsonString.shortEscape?_eq_some_iff.1 h
  simp only [JsonString.shortEscapes, List.mem_cons, Prod.mk.injEq, List.not_mem_nil,
    or_false] at hmem
  rcases hmem with ⟨rfl, rfl⟩ | ⟨rfl, rfl⟩ | ⟨rfl, rfl⟩ | ⟨rfl, rfl⟩ | ⟨rfl, rfl⟩ | ⟨rfl, rfl⟩ |
    ⟨rfl, rfl⟩
  all_goals rfl

/-- A character is read as it was written, if it is written the same by the rules of both; the way
in which any other is written is no escape of the code. -/
theorem step?_escape (c : Char) (rest : List Char) :
    step? (JsonString.escape c ++ rest) = if IsSharedChar c then some ([c], rest) else none := by
  refine JsonString.escape_cases
    (P := fun w => step? (w ++ rest) = if IsSharedChar c then some ([c], rest) else none) c
    (fun e hshort => step?_short hshort rest) (fun hplain hcontrol => ?_) fun hplain hvisible => ?_
  · have hunshared : ¬IsSharedChar c := by
      rintro (hvisible | rfl | rfl | rfl)
      · omega
      all_goals cases hplain
    rw [if_neg hunshared, JsonString.unitEscape, JsonString.hexFixed_control hcontrol]
    rfl
  · obtain ⟨-, hbackslash⟩ := JsonString.ne_of_plain hplain
    have hreturn : c ≠ '\r' := by
      rintro rfl
      cases hplain
    have hshared : IsSharedChar c := Or.inl hvisible
    simp [step?, hbackslash, hreturn, hshared]

/-- A text that is written the same by the rules of both. -/
def IsShared (cs : List Char) : Prop := ∀ c ∈ cs, IsSharedChar c

instance (cs : List Char) : Decidable (IsShared cs) :=
  decidable_of_iff (cs.all fun c => decide (IsSharedChar c)) (by simp [IsShared])

/-- A literal is read up to the first control character that has no escape. -/
theorem readWithin_escape (cs rest : List Char) {fuel : Nat} (h : cs.length < fuel) :
    readWithin fuel (cs.flatMap JsonString.escape ++ '"' :: rest) =
      if IsShared cs then some (cs, rest) else none := by
  induction cs generalizing fuel with
  | nil =>
    obtain ⟨fuel, rfl⟩ : ∃ k, fuel = k + 1 := ⟨fuel - 1, by omega⟩
    rfl
  | cons c cs ih =>
    obtain ⟨fuel, rfl⟩ : ∃ k, fuel = k + 1 := ⟨fuel - 1, by omega⟩
    have hrest := ih (Nat.lt_of_succ_lt_succ h)
    have hread := step?_escape c (cs.flatMap JsonString.escape ++ '"' :: rest)
    have hshared : IsShared (c :: cs) ↔ IsSharedChar c ∧ IsShared cs := List.forall_mem_cons
    obtain ⟨d, ds, hescape, hd⟩ := JsonString.exists_escape c
    rw [List.flatMap_cons, List.append_assoc]
    rw [hescape, List.cons_append] at hread ⊢
    by_cases hc : IsSharedChar c
    · by_cases hcs : IsShared cs <;> simp [readWithin, hd, hread, hrest, hshared, hc, hcs]
    · simp [readWithin, hd, hread, hshared, hc]

/-- **A literal is read back as code if the text holds no control characters but three, and is
refused otherwise.** -/
theorem decode?_literal (s : String) :
    decode? (JsonString.literal s) = if IsShared s.toList then some s else none := by
  have hread : readWithin _ (JsonString.inside s ++ ['"']) = _ :=
    readWithin_escape s.toList [] (JsonString.length_lt_inside s)
  rw [decode?, JsonString.toList_literal]
  by_cases hs : IsShared s.toList
  · simp only [hread, if_pos hs, String.ofList_toList]
  · simp only [hread, if_neg hs]

end CodeString

end BoardWiring
