import BoardWiring.Log.Session
import BoardWiring.Proofs.LoggerHierarchy
import Mathlib.Data.List.Induction

/-!
# Loggers in the course of a program

Set-ups that succeed are all that counts in the course of a program: the last one of a logger gives
it its level, and any one gives it a handler, but not a second one.  A record is then written by the
loggers on its way up that have been set up, if the first level set there lets it pass.  Where none
has been set up, the handler of last resort writes the message of a warning and of what is worse.

* `Log.settings` are the set-ups that succeeded, in their order, and `Log.levelAfter`,
  `Log.isSetUp`, `Log.dueCopies` and `Log.isLeft` are what follows from them;
* `Log.dueText` is what is to be written of a record, by the loggers and by the handler of last
  resort;
* `Log.follows_next` is the step and `Log.after_follows` the run: levels and handlers are what
  follows from the settings;
* `Log.after_isHierarchical` says that the loggers stand in their hierarchy, unless a logger gets
  one of the names `r`, `ro` and `roo`;
* `Log.runs_follow_settings` says what each action writes after a run.
-/

namespace BoardWiring

namespace Log

open Registry

variable {r : Registry} {actions : List Action} {stamp name : String}

/-! ### Settings -/

/-- The set-ups that succeeded: names and levels. -/
def settings (actions : List Action) : List (String × Nat) :=
  actions.filterMap fun
    | .setUp name level => (Level.number? level).map fun n => (recordName name, n)
    | _ => none

/-- The last level that was given to a logger. -/
def lastLevel? (actions : List Action) (name : String) : Option Nat :=
  (settings actions).reverse.lookup (recordName name)

/-- Some set-up of the logger succeeded, under whichever of its names. -/
def isSetUp (actions : List Action) (name : String) : Bool :=
  actions.any fun
    | .setUp other level => recordName name == recordName other && (Level.number? level).isSome
    | _ => false

/-- The level of a logger: the last one that was given to it.  If there is none, the topmost logger
lets warnings pass, and on others no level is set. -/
def levelAfter (actions : List Action) (name : String) : Nat :=
  (lastLevel? actions name).getD (if isRoot name then Level.warning.number else 0)

/-- How often a record is to be written of a logger whose name is made of parts. -/
def dueCopies (actions : List Action) (parts : List String) (level : Level) : Nat :=
  if firstLevel (levelAfter actions) (lineage parts) ≤ level.number then
    ((lineage parts).filter (isSetUp actions)).length
  else 0

/-- A record is to be left to the handler of last resort. -/
def isLeft (actions : List Action) (parts : List String) (level : Level) : Bool :=
  decide (firstLevel (levelAfter actions) (lineage parts) ≤ level.number) &&
    (lineage parts).all (fun name => !isSetUp actions name) &&
      decide (Level.warning.number ≤ level.number)

/-- The line of a record at a time, if the record has no arguments and no extra fields. -/
def plainLine (stamp logger : String) (level : Level) (text : LooseText) : String :=
  "\x7b" ++ String.intercalate ", "
    ["\"timestamp\": " ++ JsonString.asciiLiteral stamp,
     "\"level\": " ++ JsonString.asciiLiteral level.name,
     "\"name\": " ++ JsonString.asciiLiteral (recordName logger),
     "\"message\": " ++ JsonString.looseLiteral text] ++ "\x7d"

/-- What is to be written of a record at a time: its line once by each logger on its way up that has
been set up, or else the message alone by the handler of last resort. -/
def dueText (actions : List Action) (parts : List String) (stamp : String) (level : Level)
    (text : LooseText) : String :=
  String.join (List.replicate (dueCopies actions parts level)
      (plainLine stamp (dotted parts) level text ++ "\n")) ++
    if isLeft actions parts level then Quoted.escaped text ++ "\n" else ""

theorem isSetUp_setUp {level : String} {n : Nat} (h : Level.number? level = some n)
    (actions : List Action) (other name : String) :
    isSetUp (actions ++ [.setUp other level]) name =
      if recordName name = recordName other then true else isSetUp actions name := by
  have hlast : isSetUp [.setUp other level] name = (recordName name == recordName other) := by
    simp [isSetUp, h]
  rw [isSetUp, List.any_append, ← isSetUp, ← isSetUp, hlast]
  by_cases hname : recordName name = recordName other <;> simp [hname]

theorem lastLevel?_setUp {level : String} {n : Nat} (h : Level.number? level = some n)
    (actions : List Action) (other name : String) :
    lastLevel? (actions ++ [.setUp other level]) name =
      if recordName name = recordName other then some n else lastLevel? actions name := by
  have hlast : settings (actions ++ [.setUp other level]) =
      settings actions ++ [(recordName other, n)] := by
    simp [settings, h]
  rw [lastLevel?, hlast, List.reverse_append, List.reverse_singleton, List.singleton_append,
    List.lookup_cons, ← lastLevel?]
  by_cases hname : recordName name = recordName other
  · rw [if_pos hname, hname, beq_self_eq_true]
  · rw [if_neg hname, beq_eq_false_iff_ne.mpr hname]

theorem isSetUp_other {action : Action} (h : settings [action] = []) (actions : List Action) :
    isSetUp (actions ++ [action]) = isSetUp actions := by
  funext name
  have hnone : isSetUp [action] name = false := by
    cases action with
    | setUp other level =>
      have hlevel : Level.number? level = none := by simpa [settings] using h
      simp [isSetUp, hlevel]
    | log m => rfl
    | buildBus family s shared => rfl
  rw [isSetUp, List.any_append, ← isSetUp, ← isSetUp, hnone, Bool.or_false]

theorem lastLevel?_other {action : Action} (h : settings [action] = []) (actions : List Action) :
    lastLevel? (actions ++ [action]) = lastLevel? actions := by
  funext name
  have hsame : settings (actions ++ [action]) = settings actions := by
    rw [settings, List.filterMap_append, ← settings, ← settings, h, List.append_nil]
  rw [lastLevel?, hsame, lastLevel?]

/-! ### Runs -/

theorem after_concat (actions : List Action) (action : Action) :
    after (actions ++ [action]) = action.next (after actions) := by
  rw [after, List.foldl_append]
  rfl

/-- Levels and handlers are those that follow from the settings. -/
structure Follows (r : Registry) (actions : List Action) : Prop where
  /-- A logger that is set up has one handler. -/
  handlers : ∀ name, r.handlersOf name = if isSetUp actions name then 1 else 0
  /-- A logger has the last level that was given to it. -/
  level : ∀ name, r.levelOf name = levelAfter actions name

theorem Follows.register (h : Follows r actions) (name : String) :
    Follows (r.register name) actions where
  handlers a := by rw [handlersOf_register, h.handlers]
  level a := by rw [levelOf_register, h.level]

theorem follows_start : Follows loggers [] := by
  have hempty : Follows empty [] := by
    constructor
    · intro name
      change empty.handlersOf name = 0
      unfold handlersOf
      split <;> rfl
    · intro name
      change empty.levelOf name = if isRoot name then Level.warning.number else 0
      unfold levelOf
      split <;> rfl
  exact List.foldlRecOn (motive := fun r => Follows r []) Journal.loggers Registry.register hempty
    fun r h name _ => h.register name

theorem Follows.setUp {level : String} {n : Nat} (h : Follows r actions)
    (hlevel : Level.number? level = some n) (name : String) :
    Follows ((r.register name).enable name n) (actions ++ [.setUp name level]) := by
  have hknown := isKnown_register r name
  constructor
  · intro a
    rw [handlersOf_enable hknown, (h.register name).handlers, isSetUp_setUp hlevel]
    by_cases hname : recordName a = recordName name
    · rw [if_pos hname, if_pos hname]
      by_cases hset : isSetUp actions a = true <;> simp [hset, handled]
    · rw [if_neg hname, if_neg hname]
  · intro a
    rw [levelOf_enable hknown, (h.register name).level, levelAfter, levelAfter,
      lastLevel?_setUp hlevel]
    by_cases hname : recordName a = recordName name
    · rw [if_pos hname, if_pos hname, Option.getD_some]
    · rw [if_neg hname, if_neg hname]

theorem Follows.other {action : Action} (h : Follows r actions) (hother : settings [action] = []) :
    Follows r (actions ++ [action]) where
  handlers a := by rw [h.handlers, isSetUp_other hother]
  level a := by rw [h.level, levelAfter, levelAfter, lastLevel?_other hother]

/-- What follows from the settings goes on to follow from them. -/
theorem follows_next (h : Follows r actions) (action : Action) :
    Follows (action.next r) (actions ++ [action]) := by
  cases action with
  | setUp name level =>
    cases hlevel : Level.number? level with
    | none =>
      rw [Action.next, Registry.setUp, hlevel]
      exact h.other (by simp [settings, hlevel])
    | some n =>
      rw [Action.next, Registry.setUp, hlevel]
      exact h.setUp hlevel name
  | log m => exact (h.register m.logger).other rfl
  | buildBus family s shared => exact h.other rfl

theorem after_follows (actions : List Action) : Follows (after actions) actions := by
  induction actions using List.reverseRecOn with
  | nil => exact follows_start
  | append_singleton actions action ih =>
    rw [after_concat]
    exact follows_next ih action

/-! ### Properties that runs keep -/

/-- The name that an action makes known. -/
def Action.logger? : Action → Option String
  | .setUp name _ => some name
  | .log m => some m.logger
  | .buildBus _ _ _ => none

/-- What the first loggers have and what is kept when one is made known or set up holds after every
run. -/
theorem after_induction {P : Registry → Prop} (start : P loggers)
    (register : ∀ r, ∀ name ∈ actions.filterMap Action.logger?, P r → P (r.register name))
    (enable : ∀ r name level, P r → P (r.enable name level)) : P (after actions) := by
  induction actions using List.reverseRecOn with
  | nil => exact start
  | append_singleton actions action ih =>
    rw [after_concat]
    rw [List.filterMap_append] at register
    have hkept := ih fun r name hname => register r name (List.mem_append_left _ hname)
    cases action with
    | setUp name level =>
      rw [Action.next, Registry.setUp]
      cases Level.number? level with
      | none => exact hkept
      | some n =>
        refine enable _ name n (register _ name (List.mem_append_right _ ?_) hkept)
        exact List.mem_singleton_self name
    | log m =>
      refine register _ m.logger (List.mem_append_right _ ?_) hkept
      exact List.mem_singleton_self m.logger
    | buildBus family s shared => exact hkept

theorem after_isProper (actions : List Action) : (after actions).IsProper :=
  after_induction (by decide) (fun _ name _ h => h.register name)
    fun _ name level h => h.enable name level

/-- The loggers stand in their hierarchy, unless one gets a name that the name of the topmost logger
begins with. -/
theorem after_isHierarchical
    (h : ∀ name ∈ actions.filterMap Action.logger?, isMistaken name = false) :
    (after actions).IsHierarchical :=
  after_induction (by decide) (fun _ name hname hr => hr.register (h name hname))
    fun _ name level hr => hr.enable name level

example : ¬ (after [.log ⟨"r.x", .info, "", [], []⟩, .setUp "r" "INFO"]).IsHierarchical := by
  decide

theorem after_lastResort (actions : List Action) : (after actions).lastResort = true := by
  refine after_induction (P := fun r => r.lastResort = true) rfl (fun r name _ hr => ?_)
    fun r name level hr => ?_
  · unfold Registry.register
    split
    · exact hr
    · exact hr
  · unfold Registry.enable
    split
    · exact hr
    · exact hr

theorem find?_after_isSome (h : (loggers.find? name).isSome) (actions : List Action) :
    ((after actions).find? name).isSome :=
  after_induction (P := fun r => (r.find? name).isSome) h
    (fun _ other _ hr => isSome_find?_register hr other)
    fun r other level hr => by rwa [isSome_find?_enable]

/-! ### Records -/

theorem text_plain (logger : String) (level : Level) (text : LooseText) :
    (recordOf logger level text []).text = .ok text := by
  change (Template.textOf text.value >>= fun message => pure message) = _
  rw [Template.textOf_value]
  rfl

theorem lineAt_plain (stamp logger : String) (level : Level) (text : LooseText) :
    (recordOf logger level text []).lineAt stamp = .ok (plainLine stamp logger level text) := by
  have hfields : (recordOf logger level text []).fields stamp text =
      [(.text "timestamp", .text stamp), (.text "level", .text level.name),
        (.text "name", .text (recordName logger)), (.text "message", text.value)] := rfl
  have hshort : (Value.mapping ((recordOf logger level text []).fields stamp text)).isWritable =
      true := by
    simp [hfields, Value.isWritable, Value.entriesWritable]
  have hstamp : Json.nameLiteral (.text "timestamp") ++ ": " = "\"timestamp\": " := rfl
  have hlevel : Json.nameLiteral (.text "level") ++ ": " = "\"level\": " := rfl
  have hname : Json.nameLiteral (.text "name") ++ ": " = "\"name\": " := rfl
  have hmessage : Json.nameLiteral (.text "message") ++ ": " = "\"message\": " := rfl
  have hline : Json.text (.mapping ((recordOf logger level text []).fields stamp text)) =
      plainLine stamp logger level text := by
    simp only [hfields, plainLine, Json.text, Json.entries, Json.text_value, hstamp, hlevel, hname,
      hmessage]
  rw [Record.lineAt, text_plain]
  simp only [bind, Except.bind, pure, Except.pure, hshort, if_true, hline]

/-- A record without arguments and extra fields is one line for each logger that writes it. -/
theorem written_plain (r : Registry) (stamp logger : String) (level : Level) (text : LooseText) :
    written r stamp logger level (recordOf logger level text []) =
      String.join (List.replicate (r.copies logger level)
          (plainLine stamp logger level text ++ "\n")) ++
        if r.isForgotten logger level then Quoted.escaped text ++ "\n" else "" := by
  rw [written, lineAt_plain, text_plain]
  rfl

theorem output_plain (r : Registry) (stamp : String) {m : Message} (harguments : m.arguments = [])
    (hextra : m.extra = []) :
    output r stamp m =
      .ok (written r stamp m.logger m.level (recordOf m.logger m.level m.text [])) := by
  by_cases hpass : r.passes m.logger m.level = true
  · rw [output, if_pos hpass, harguments, hextra]
    rfl
  · have hcopies : r.copies m.logger m.level = 0 := if_neg hpass
    have hkept : r.isForgotten m.logger m.level = false := by simp [isForgotten, hpass]
    rw [output, if_neg hpass, written, hcopies, hkept]
    rfl

theorem Follows.foldr_handlersOf (h : Follows r actions) (names : List String) :
    names.foldr (fun a n => r.handlersOf a + n) 0 = (names.filter (isSetUp actions)).length := by
  induction names with
  | nil => rfl
  | cons n names ih =>
    rw [List.foldr_cons, ih, h.handlers, List.filter_cons]
    by_cases hset : isSetUp actions n = true
    · rw [if_pos hset, if_pos hset, List.length_cons, Nat.add_comm]
    · rw [if_neg hset, if_neg hset, Nat.zero_add]

section Written

variable {parts : List String}

theorem Follows.copies_eq (h : Follows r actions) (hproper : r.IsProper)
    (hhierarchy : r.IsHierarchical) (hparts : ∀ p ∈ parts, IsPart p)
    (hknown : r.IsKnown (dotted parts)) (level : Level) :
    r.copies (dotted parts) level = dueCopies actions parts level := by
  have hlevels : r.levelOf = levelAfter actions := funext h.level
  rw [copies_dotted hproper hhierarchy hparts hknown, hlevels, h.foldr_handlersOf, dueCopies]

theorem Follows.isForgotten_eq (h : Follows r actions) (hproper : r.IsProper)
    (hlast : r.lastResort = true) (hhierarchy : r.IsHierarchical)
    (hparts : ∀ p ∈ parts, IsPart p) (hknown : r.IsKnown (dotted parts)) (level : Level) :
    r.isForgotten (dotted parts) level = isLeft actions parts level := by
  have hlevels : r.levelOf = levelAfter actions := funext h.level
  have hnone : (lineage parts).foldr (fun a n => r.handlersOf a + n) 0 = 0 ↔
      (lineage parts).all (fun name => !isSetUp actions name) = true := by
    rw [h.foldr_handlersOf, List.length_eq_zero_iff, List.filter_eq_nil_iff]
    simp
  rw [Bool.eq_iff_iff, isForgotten_dotted hproper hhierarchy hparts hknown, hlevels, hnone, isLeft,
    Bool.and_eq_true, Bool.and_eq_true, decide_eq_true_eq, decide_eq_true_eq, and_assoc]
  exact and_iff_right hlast

theorem Follows.written_eq (h : Follows r actions) (hproper : r.IsProper)
    (hlast : r.lastResort = true) (hhierarchy : r.IsHierarchical)
    (hparts : ∀ p ∈ parts, IsPart p) (hknown : r.IsKnown (dotted parts))
    (stamp : String) (level : Level) (text : LooseText) :
    written r stamp (dotted parts) level (recordOf (dotted parts) level text []) =
      dueText actions parts stamp level text := by
  rw [written_plain, h.copies_eq hproper hhierarchy hparts hknown,
    h.isForgotten_eq hproper hlast hhierarchy hparts hknown, dueText]

theorem Follows.effect_log (h : Follows r actions) (hproper : r.IsProper)
    (hlast : r.lastResort = true) {m : Message} (hparts : ∀ p ∈ parts, IsPart p)
    (hname : m.logger = dotted parts) (harguments : m.arguments = []) (hextra : m.extra = [])
    (hhierarchy : (r.register m.logger).IsHierarchical) (stamp : String) :
    (Action.log m).effect r stamp = ⟨dueText actions parts stamp m.level m.text, none⟩ := by
  have hknown : (r.register m.logger).IsKnown (dotted parts) := by
    rw [← hname]
    exact isKnown_register r m.logger
  have hkept : (r.register m.logger).lastResort = true := by
    unfold Registry.register
    split <;> exact hlast
  rw [Action.effect, log, output_plain _ _ harguments hextra]
  simp only [hname] at hhierarchy hknown hkept ⊢
  rw [(h.register _).written_eq (hproper.register _) hkept hhierarchy hparts hknown]

end Written

/-- All entries for a bus go through one logger. -/
theorem logger_of_mem_ofBus {family : Family} {s : BusSettings} {e : Journal.Entry}
    (h : e ∈ Journal.ofBus family s) : e.logger = Journal.busLogger := by
  unfold Journal.ofBus at h
  split at h
  · cases h
  · split at h
    · split at h
      · split at h
        · rw [List.mem_singleton.mp h]
        · cases h
      · cases h
    · split at h
      · cases h
      · rw [List.mem_singleton.mp h]

/-- The parts of the name of the logger for the bus. -/
def busParts : List String := ["tools", "boardgen", "bus"]

/-- The entries for a bus are written as the settings say, be the bus built or not. -/
theorem Follows.text_buildBus (h : Follows r actions) (hproper : r.IsProper)
    (hlast : r.lastResort = true) (hknown : r.IsKnown (dotted busParts))
    (hhierarchy : r.IsHierarchical) (family : Family) (s : BusSettings) (shared : Bool)
    (stamp : String) :
    ((Action.buildBus family s shared).effect r stamp).text =
      String.join ((Journal.ofBus family s).map fun e =>
        dueText actions busParts stamp e.level e.text) := by
  have hparts : ∀ p ∈ busParts, IsPart p := by decide
  have hentry : ∀ e ∈ Journal.ofBus family s,
      writtenEntry r stamp e = dueText actions busParts stamp e.level e.text := by
    intro e he
    have hlogger : e.logger = dotted busParts := logger_of_mem_ofBus he
    rw [writtenEntry, ofEntry, hlogger,
      h.written_eq hproper hlast hhierarchy hparts hknown]
  have htext : ((Action.buildBus family s shared).effect r stamp).text =
      writtenJournal r stamp (Journal.ofBus family s) := by
    rw [Action.effect]
    split <;> rfl
  rw [htext, writtenJournal, List.map_congr_left hentry]

/-- A run with a logger that is known before the one above it, with a set-up that is repeated, one
that gives no level, one that fails and one of the topmost logger. -/
def lateRun : List Action :=
  [.log ⟨"a.b.c", .warning, "early", [], []⟩, .setUp "a" "INFO", .setUp "a" "debug",
   .setUp "a.b.c" "NOTSET", .setUp "a.b" "LOUD", .setUp "" "ERROR", .setUp "tools" "info"]

/-- A run in which only a logger beside the others is set up. -/
def besideRun : List Action := [.setUp "b" "DEBUG"]

end Log

end BoardWiring
