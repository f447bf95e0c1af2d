import BoardWiring.Log.Record
import BoardWiring.Proofs.JsonReading
import BoardWiring.Proofs.TimeStamps

/-!
# The lines of log records

A log record is one line of ASCII, which is read back as the fields of the record.

* `Log.Record.areVisible_line` says that no line holds a control character, whatever is logged;
* `Log.Record.IsExtra` are the fields that may be logged with a message, and
  `Log.Record.shownFields` what is to be shown for them: they follow the four fields of every line,
  but those that are named as the time stamp or as the level take the place of these;
* `Log.Record.line_decodes` says that every record of the years 1 to 9999 has a line, and that this
  is what it is read back as;
* `Log.Record.line_logged` is the line of any record, and `Log.Record.not_decoded` are two records
  that have none, and two that have the same one.
-/

namespace BoardWiring

namespace Log

namespace Record

open Json (named enter_named)
open JsonString (IsUnpaired)

/-- **The line of a record is one line of ASCII, whatever is logged.** -/
theorem areVisible_line {r : Record} {s : String} (h : r.line = .ok s) :
    JsonString.AreVisible s.toList := by
  unfold line lineAt at h
  cases hstamp : Clock.stamp r.created with
  | error f =>
    rw [hstamp] at h
    cases h
  | ok stamp =>
    cases htext : r.text with
    | error f =>
      rw [hstamp, htext] at h
      cases h
    | ok message =>
      rw [hstamp, htext] at h
      by_cases hshort : (Value.mapping (r.fields stamp message)).isWritable = true
      · simp only [Outcome.ok_bind, hshort, if_true] at h
        cases h
        exact Json.areVisible_text _
      · simp only [Outcome.ok_bind, hshort] at h
        cases h

/-! ### Extra fields -/

/-- The fields that may be logged with a message: their names are different from one another, and
they are neither fields that every record has nor methods of a record. -/
structure AreNamed (extra : List (LooseText × Value)) : Prop where
  /-- The names are different from one another. -/
  distinct : (extra.map Prod.fst).Nodup
  /-- No field is one that every record has. -/
  not_standard : ∀ f ∈ extra, ∀ s ∈ standardFields, f.1 ≠ .ofString s
  /-- No field hides a method. -/
  not_method : ∀ f ∈ extra, ∀ s ∈ methods, f.1 ≠ .ofString s

/-- Such fields that can be told from their line. -/
structure IsExtra (extra : List (LooseText × Value)) : Prop extends AreNamed extra where
  /-- No two halves side by side make a pair. -/
  unpaired : ∀ f ∈ extra, IsUnpaired f.1.points
  /-- The values are those that JSON knows. -/
  isJson : ∀ f ∈ extra, Json.IsJson f.2

variable {extra : List (LooseText × Value)} {k name level message : LooseText} {stamp : String}
  {x : Value}

theorem withField_of_not_standard (r : Record) (h : ∀ s ∈ standardFields, k ≠ .ofString s) :
    r.withField k.value x = { r with extra := Value.enter k.value x r.extra } := by
  unfold LooseText.value
  split
  · rename_i w hwhole
    obtain rfl := LooseText.whole?_eq_some_iff.1 hwhole
    have hstandard : ∀ s ∈ standardFields, w ≠ s := fun s hs heq => h s hs (heq ▸ rfl)
    unfold withField
    split
    case h_6 hkey =>
      cases hkey
      exact if_neg fun hmem => hstandard w hmem rfl
    case h_7 hkey => cases hkey
    case h_8 hother _ => exact absurd rfl (hother w)
    all_goals
      rename_i hkey
      exact absurd (Value.text.inj hkey) (hstandard _ (by decide))
  · rfl

theorem withFields_named (r : Record) (before : List (LooseText × Value))
    (hbefore : r.extra = named before) (hdistinct : ((before ++ extra).map Prod.fst).Nodup)
    (hstandard : ∀ f ∈ extra, ∀ s ∈ standardFields, f.1 ≠ .ofString s) :
    r.withFields (named extra) = { r with extra := named (before ++ extra) } := by
  induction extra generalizing r before with
  | nil =>
    rw [List.append_nil, ← hbefore]
    rfl
  | cons f extra ih =>
    obtain ⟨k, x⟩ := f
    obtain ⟨hk, hextra⟩ := List.forall_mem_cons.1 hstandard
    have hnew : k ∉ before.map Prod.fst := by
      intro hmem
      rw [List.map_append, List.map_cons] at hdistinct
      exact List.disjoint_of_nodup_append hdistinct hmem List.mem_cons_self
    have hstep : r.withFields (named ((k, x) :: extra)) =
        (r.withField k.value x).withFields (named extra) := rfl
    rw [List.append_cons] at hdistinct ⊢
    rw [hstep, withField_of_not_standard r hk, hbefore, enter_named hnew,
      ih _ _ rfl hdistinct hextra]

/-! ### The fields of a line -/

/-- The record of a message without arguments, with extra fields. -/
def logged (name level message : LooseText) (created : Value) (extra : List (LooseText × Value)) :
    Record :=
  ({ name := name.value, level := level.value, message := message.value,
     arguments := argumentsOf [], created, extra := [] } : Record).withFields (named extra)

/-- The fields that every line begins with. -/
def leading (stamp level : Value) (name message : LooseText) : List (LooseText × Value) :=
  [("timestamp", stamp), ("level", level), ("name", name.value), ("message", message.value)]

/-- An extra field that stands behind the leading ones. -/
def isBehind (f : LooseText × Value) : Bool := f.1 != "timestamp" && f.1 != "level"

/-- What is to be shown for a record: an extra field with the name of the time stamp or of the level
takes its place, and the others follow in their order. -/
def shownFields (stamp : String) (name level message : LooseText)
    (extra : List (LooseText × Value)) : List (LooseText × Value) :=
  leading ((extra.lookup (.ofString "timestamp")).getD (.text stamp))
    ((extra.lookup (.ofString "level")).getD level.value) name message ++ extra.filter isBehind

theorem logged_eq {created : Value} (h : AreNamed extra) :
    logged name level message created extra =
      { name := name.value, level := level.value, message := message.value,
        arguments := argumentsOf [], created, extra := named extra } :=
  withFields_named _ [] rfl h.distinct h.not_standard

theorem lookup_eq_none (h : k ∉ extra.map Prod.fst) : extra.lookup k = none := by
  rw [List.lookup_eq_none_iff]
  intro f hf
  rw [bne_iff_ne]
  rintro rfl
  exact h (List.mem_map_of_mem hf)

theorem enter_named_self (k : LooseText) (x y : Value) (fields : List (LooseText × Value)) :
    Value.enter k.value x (named ((k, y) :: fields)) = named ((k, x) :: fields) :=
  if_pos (Json.sameKey_value_iff.2 rfl)

theorem enter_named_cons {l : LooseText} (h : l ≠ k) (x y : Value)
    (fields : List (LooseText × Value)) :
    Value.enter k.value x (named ((l, y) :: fields)) =
      (l.value, y) :: Value.enter k.value x (named fields) :=
  if_neg fun hkey => h (Json.sameKey_value_iff.1 hkey)

/-- A field is entered in the place of a leading one, or behind all others. -/
theorem foldl_enter_named (name message : LooseText) (stamp level : Value)
    (before : List (LooseText × Value))
    (hdistinct : ((before ++ extra).map Prod.fst).Nodup)
    (hextra : ∀ f ∈ extra, f.1 ≠ "name" ∧ f.1 ≠ "message") :
    (named extra).foldl (fun es e => Value.enter e.1 e.2 es)
        (named (leading stamp level name message ++ before)) =
      named (leading ((extra.lookup (.ofString "timestamp")).getD stamp)
        ((extra.lookup (.ofString "level")).getD level) name message ++ before ++
          extra.filter isBehind) := by
  induction extra generalizing before stamp level with
  | nil => simp [named]
  | cons f extra ih =>
    obtain ⟨k, x⟩ := f
    obtain ⟨hk, hfields⟩ := List.forall_mem_cons.1 hextra
    have hstep : ∀ es : List (Value × Value), (named ((k, x) :: extra)).foldl
        (fun es e => Value.enter e.1 e.2 es) es =
          (named extra).foldl (fun es e => Value.enter e.1 e.2 es) (Value.enter k.value x es) :=
      fun _ => rfl
    have hmap : (before ++ (k, x) :: extra).map Prod.fst =
        before.map Prod.fst ++ k :: extra.map Prod.fst := by rw [List.map_append, List.map_cons]
    have hrest : k ∉ extra.map Prod.fst := by
      rw [hmap] at hdistinct
      exact (List.nodup_cons.1 (List.nodup_append.1 hdistinct).2.1).1
    have hskipped : ((before ++ extra).map Prod.fst).Nodup := by
      refine hdistinct.sublist ?_
      rw [List.map_append, hmap]
      exact List.Sublist.append_left (List.sublist_cons_self _ _) _
    have hlookup : ∀ s : LooseText, k ≠ s → ((k, x) :: extra).lookup s = extra.lookup s := by
      intro s hs
      rw [List.lookup_cons, beq_eq_false_iff_ne.2 (Ne.symm hs)]
    have hlabels : ("timestamp" : LooseText) ≠ "level" := by decide
    rw [hstep]
    by_cases hstamp : k = "timestamp"
    · subst hstamp
      have hplace : Value.enter (LooseText.ofString "timestamp").value x
          (named (leading stamp level name message ++ before)) =
            named (leading x level name message ++ before) := enter_named_self ..
      rw [hplace, ih _ _ _ hskipped hfields, lookup_eq_none hrest, hlookup _ hlabels]
      simp [isBehind]
    by_cases hlevel : k = "level"
    · subst hlevel
      have hplace : Value.enter (LooseText.ofString "level").value x
          (named (leading stamp level name message ++ before)) =
            named (leading stamp x name message ++ before) :=
        (enter_named_cons hlabels ..).trans (congrArg _ (enter_named_self ..))
      rw [hplace, ih _ _ _ hskipped hfields, lookup_eq_none hrest, hlookup _ hlabels.symm]
      simp [isBehind]
    · -- A field with a name of its own comes behind all others.
      have hbefore : k ∉ before.map Prod.fst := by
        intro hmem
        rw [hmap] at hdistinct
        exact List.disjoint_of_nodup_append hdistinct hmem List.mem_cons_self
      have hnew : k ∉ (leading stamp level name message ++ before).map Prod.fst := by
        rw [List.map_append, List.mem_append, not_or]
        refine ⟨?_, hbefore⟩
        simp [leading, hstamp, hlevel, hk]
      have hbehind : isBehind (k, x) = true := by simp [isBehind, hstamp, hlevel]
      rw [enter_named hnew, List.append_assoc, ih _ _ _ (List.append_cons .. ▸ hdistinct) hfields,
        hlookup _ hstamp, hlookup _ hlevel, List.filter_cons_of_pos hbehind]
      simp only [List.append_assoc, List.singleton_append]

/-! ### Lines -/

theorem find?_named (h : k ∉ extra.map Prod.fst) : Value.find? k.value (named extra) = none := by
  induction extra with
  | nil => rfl
  | cons f extra ih =>
    rw [List.map_cons, List.mem_cons, not_or] at h
    have hkey : ¬Value.sameKey f.1.value k.value = true := by
      rw [Json.sameKey_value_iff]
      exact Ne.symm h.1
    have hcons : named (f :: extra) = (f.1.value, f.2) :: named extra := rfl
    rw [hcons, Value.find?, if_neg hkey, ih h.2]

theorem text_logged {created : Value} (h : AreNamed extra) :
    (logged name level message created extra).text = .ok message := by
  have hmethods : (methods.findSome? fun m => Value.find? (.text m) (named extra)) = none := by
    rw [List.findSome?_eq_none_iff]
    intro m hm
    rw [← LooseText.value_ofString]
    refine find?_named fun hmem => ?_
    obtain ⟨f, hf, hname⟩ := List.mem_map.1 hmem
    exact h.not_method f hf m hm hname
  rw [logged_eq h, text, hidden?]
  simp only [hmethods, Template.textOf_value]
  rfl

theorem AreNamed.not_leading (h : AreNamed extra) :
    ∀ f ∈ extra, f.1 ≠ "name" ∧ f.1 ≠ "message" := by
  intro f hf
  have hstandard := h.not_standard f hf
  exact ⟨hstandard "name" (by decide), hstandard "message" (by decide)⟩

theorem fields_logged {created : Value} (h : AreNamed extra) :
    (logged name level message created extra).fields stamp message =
      named (shownFields stamp name level message extra) := by
  have hfold := foldl_enter_named name message (.text stamp) level.value [] h.distinct
    h.not_leading
  have hleading : named (leading (.text stamp) level.value name message) =
      [(.text "timestamp", .text stamp), (.text "level", level.value),
        (.text "name", name.value), (.text "message", message.value)] := by
    simp [named, leading]
  rw [List.append_nil, List.append_nil, hleading] at hfold
  rw [logged_eq h]
  exact hfold

theorem line_logged {created : Value} (h : AreNamed extra)
    (hstamp : Clock.stamp created = .ok stamp) :
    (logged name level message created extra).line =
      if (Value.mapping (named (shownFields stamp name level message extra))).isWritable then
        .ok (Json.text (.mapping (named (shownFields stamp name level message extra))))
      else .error (.template .tooLong) := by
  have hcreated : (logged name level message created extra).created = created := by
    rw [logged_eq h]
  rw [line, hcreated, hstamp]
  simp only [lineAt, text_logged h, Outcome.ok_bind, fields_logged h]
  split_ifs <;> rfl

/-- The texts of a record: no two halves side by side make a pair. -/
structure AreUnpaired (name level message : LooseText) : Prop where
  /-- Name of the logger. -/
  name : IsUnpaired name.points
  /-- Name of the level. -/
  level : IsUnpaired level.points
  /-- Message. -/
  message : IsUnpaired message.points

theorem isJson_shownFields (stamp : String) (htexts : AreUnpaired name level message)
    (h : IsExtra extra) :
    Json.IsJson (.mapping (named (shownFields stamp name level message extra))) := by
  have hvalue : ∀ (v : Value) (k : LooseText), Json.IsJson v →
      Json.IsJson ((extra.lookup k).getD v) := by
    intro v k hv
    cases hlookup : extra.lookup k with
    | none => exact hv
    | some x =>
      obtain ⟨before, after, rfl, -⟩ := List.lookup_eq_some_iff.1 hlookup
      exact h.isJson (k, x) (List.mem_append_right _ List.mem_cons_self)
  have hbehind : ∀ f ∈ extra.filter isBehind, f ∈ extra := fun f hf => (List.mem_filter.1 hf).1
  refine .mapping ?_
    (List.forall_mem_append.2 ⟨?_, fun f hf => h.unpaired f (hbehind f hf)⟩)
    (List.forall_mem_append.2 ⟨?_, fun f hf => h.isJson f (hbehind f hf)⟩)
  · have hlabels : ∀ k ∈ (extra.filter isBehind).map Prod.fst,
        k ≠ "timestamp" ∧ k ≠ "level" ∧ k ≠ "name" ∧ k ≠ "message" := by
      intro k hk
      obtain ⟨f, hf, rfl⟩ := List.mem_map.1 hk
      obtain ⟨hmem, hfilter⟩ := List.mem_filter.1 hf
      rw [isBehind, Bool.and_eq_true, bne_iff_ne, bne_iff_ne] at hfilter
      exact ⟨hfilter.1, hfilter.2, h.not_leading f hmem⟩
    have hleading : ∀ k ∈ (["timestamp", "level", "name", "message"] : List LooseText),
        k ∉ (extra.filter isBehind).map Prod.fst := by
      intro k hk hmem
      obtain ⟨hstamp, hlevel, hname, hmessage⟩ := hlabels k hmem
      simp [hstamp, hlevel, hname, hmessage] at hk
    have hnodup : (["timestamp", "level", "name", "message"] : List LooseText).Nodup := by decide
    rw [shownFields, List.map_append]
    exact List.nodup_append'.2 ⟨hnodup, h.distinct.sublist (List.filter_sublist.map _), hleading⟩
  · simp only [leading, List.forall_mem_cons]
    exact ⟨by decide, by decide, by decide, by decide, by simp⟩
  · simp only [leading, List.forall_mem_cons]
    exact ⟨hvalue _ _ (Json.isJson_string stamp), hvalue _ _ (.text htexts.level),
      .text htexts.name, .text htexts.message, by simp⟩

/-- **A log record is one decodable line.** -/
theorem line_decodes {created : Value} (htexts : AreUnpaired name level message)
    (hcreated : Clock.IsTime created) (hextra : IsExtra extra) :
    ∃ stamp line, Clock.stamp created = .ok stamp ∧
      (logged name level message created extra).line = .ok line ∧
      JsonString.AreVisible line.toList ∧
      Json.read? line = some (.mapping (named (shownFields stamp name level message extra))) := by
  obtain ⟨stamp, hstamp⟩ := Clock.exists_stamp hcreated
  have hjson := isJson_shownFields stamp htexts hextra
  have hline : (logged name level message created extra).line =
      .ok (Json.text (.mapping (named (shownFields stamp name level message extra)))) := by
    rw [line_logged hextra.toAreNamed hstamp, if_pos hjson.isWritable]
  exact ⟨stamp, _, hstamp, hline, areVisible_line hline, Json.read?_text hjson⟩

/-- Half a second before the year 10000, with a level of its own, the second half of a pair alone, a
small double and values inside one another. -/
theorem line_decodes_overridden :
    ∃ stamp line,
      Clock.stamp (.float (.finite false 8303486592598016 (-15))) = .ok stamp ∧
      (logged "board" "INFO" (("😀 \"é\"\n\x00" : LooseText) ++ ⟨[.half 0x600]⟩)
        (.float (.finite false 8303486592598016 (-15)))
        [("ratio", .float (.finite true 5902958103587057 (-69))), ("level", .text "custom"),
         ("pins", .list [.null, .mapping (named [("a\tb", .int (-3))])])]).line = .ok line ∧
      JsonString.AreVisible line.toList ∧
      Json.read? line = some (.mapping (named
        [("timestamp", .text stamp), ("level", .text "custom"),
         ("name", (LooseText.ofString "board").value),
         ("message", (("😀 \"é\"\n\x00" : LooseText) ++ ⟨[.half 0x600]⟩).value),
         ("ratio", .float (.finite true 5902958103587057 (-69))),
         ("pins", .list [.null, .mapping (named [("a\tb", .int (-3))])])])) := by
  have htexts : AreUnpaired "board" "INFO"
      (("😀 \"é\"\n\x00" : LooseText) ++ ⟨[.half 0x600]⟩) :=
    ⟨by decide, by decide, by decide⟩
  have hcreated : Clock.IsTime (.float (.finite false 8303486592598016 (-15))) := by
    have hratio : (Binary64.finite false 8303486592598016 (-15)).ratio? =
        some (8303486592598016, 2 ^ 15) := rfl
    refine .float (by decide) hratio ?_ ?_
    · rw [Clock.first_eq]
      decide
    · rw [Clock.beyond_eq]
      decide
  have hextra : IsExtra
      [("ratio", .float (.finite true 5902958103587057 (-69))), ("level", .text "custom"),
       ("pins", .list [.null, .mapping (named [("a\tb", .int (-3))])])] := by
    have hshort : Digits.isWritable (-3) = true := Digits.isWritable_of_lt (by decide)
    have hinner : Json.IsJson (.mapping (named [("a\tb", .int (-3))])) :=
      .mapping (by decide) (by decide) (List.forall_mem_singleton.2 (.int hshort))
    refine ⟨⟨by decide, by decide, by decide⟩, by decide, ?_⟩
    refine List.forall_mem_cons.2 ⟨.float (by decide), List.forall_mem_cons.2
      ⟨Json.isJson_string _, List.forall_mem_singleton.2 (.list (List.forall_mem_cons.2 ⟨.null,
        List.forall_mem_singleton.2 hinner⟩))⟩⟩
  exact line_decodes htexts hcreated hextra

/-- An integer that is too long, a time that is rounded up to the year 10000, and a message of two
halves whose line is that of one character. -/
theorem not_decoded :
    (logged "a" "INFO" "hello" (.int 0) [("n", .int Digits.overlong)]).line =
        .error (.template .tooLong) ∧
      (logged "a" "INFO" "hello" (.float (.ofDecimal false 2534023007999999999 (-7))) []).line =
        .error (.clock (.year 10000)) ∧
      (logged "a" "INFO" ⟨[.half 0x3d, .half 0x600]⟩ (.int 0) []).line =
        (logged "a" "INFO" "😀" (.int 0) []).line := by
  have hstamp : Clock.stamp (.int 0) = .ok "1970-01-01T00:00:00+00:00" := by decide +kernel
  have hlate : Clock.stamp (.float (.ofDecimal false 2534023007999999999 (-7))) =
      .error (.year 10000) := by decide +kernel
  have hnone : AreNamed [] := ⟨by decide, by decide, by decide⟩
  have hlong : ∀ i, Digits.isWritable i = false →
      (logged "a" "INFO" "hello" (.int 0) [("n", .int i)]).line = .error (.template .tooLong) := by
    intro i hi
    have hstandard : ∀ s ∈ standardFields, ("n" : LooseText) ≠ .ofString s := by decide
    have hmethod : ∀ s ∈ methods, ("n" : LooseText) ≠ .ofString s := by decide
    have hnames : AreNamed [("n", .int i)] :=
      ⟨List.nodup_singleton _, List.forall_mem_singleton.2 hstandard,
        List.forall_mem_singleton.2 hmethod⟩
    have hshown : shownFields "1970-01-01T00:00:00+00:00" "a" "INFO" "hello" [("n", .int i)] =
        leading (.text "1970-01-01T00:00:00+00:00") (.text "INFO") "a" "hello" ++
          [(("n" : LooseText), .int i)] := rfl
    rw [line_logged hnames hstamp, hshown, if_neg]
    simp [leading, named, Value.isWritable, Value.entriesWritable, hi]
  have hline : ∀ m : LooseText, (logged "a" "INFO" m (.int 0) []).line =
      .ok (Json.text (.mapping (named (leading (.text "1970-01-01T00:00:00+00:00")
        (LooseText.ofString "INFO").value "a" m)))) := by
    intro m
    rw [line_logged hnone hstamp, if_pos]
    · rfl
    · simp [shownFields, leading, named, Value.isWritable, Value.entriesWritable]
  have hsame : JsonString.looseLiteral ⟨[.half 0x3d, .half 0x600]⟩ =
      JsonString.looseLiteral "😀" := by decide +kernel
  refine ⟨hlong _ Digits.isWritable_overlong, ?_, ?_⟩
  · rw [line, logged_eq hnone, hlate]
  · rw [hline, hline]
    simp only [leading, Json.text, Json.entries_named_cons, Json.text_value, hsame]

end Record

end Log

end BoardWiring
