import BoardWiring.Command.Run
import BoardWiring.Document.Basic
import BoardWiring.Proofs.FileTable
import BoardWiring.Proofs.Outcome
import Mathlib.Tactic.Common

/-!
# What the command does to its files

The command writes one file or none, and only once the unit is there.  It empties the file before
the unit is encoded, so that a unit with a half of a pair in it takes the place of what was there
with nothing.

* `Command.attempt` is the unit that a request asks for, or the reason why there is none;
* `GeneratedUnit.exists_render_iff` says that a unit is a string if the name of its board is one;
* `Command.Executed` lists the ways in which a request can end, and `Command.executed_execute` says
  that there are no others;
* `Command.runOn_all_or_nothing` says what is written then, and that otherwise all files are as
  they were, unless the name of the board is torn.
-/

namespace BoardWiring

open Outcome

theorem GeneratedUnit.exists_render_iff (u : GeneratedUnit) :
    (∃ text : String, u.render = text) ↔ ∃ name : String, u.boardName = name := by
  have hstring : ∀ s : String, ∃ t : String, (LooseText.ofString s) = t := fun s => ⟨s, rfl⟩
  simp only [render, title, LooseText.exists_string_append, hstring, true_and, and_true]

namespace Command

variable {load : Loader} {stamp : String} {fs fs' : Files} {argv : List String} {q : Request}

/-- The unit that a request asks for: the log level must be known and the input a text, and the
board in it must be compiled. -/
def attempt (load : Loader) (fs : Files) (q : Request) : Except Breakdown GeneratedUnit := do
  let _ ← (loggersOf q).mapError .failure
  let bytes ← (fs.read q.input).mapError .file
  let text ← (decode? bytes).elim (.error .notText) .ok
  let b ← (Board.ofText load text).mapError .failure
  (b.generate (Path.baseName q.input)).mapError .failure

/-- The path that a unit is written to; without one it goes to standard output. -/
def target (q : Request) : Option String := q.output.filter (· != "")

theorem target_eq_some_iff {path : String} :
    target q = some path ↔ q.output = some path ∧ path ≠ "" := by
  rw [target, Option.filter_eq_some_iff, bne_iff_ne]

theorem target_eq_none_iff : target q = none ↔ q.output = none ∨ q.output = some "" := by
  unfold target
  cases q.output with
  | none => simp
  | some path => simp [Option.filter]

/-! ### Runs on a table -/

/-- The text that the loggers write of a journal if it is always the same time. -/
def journalText (r : Log.Registry) (stamp : String) : List Journal.Entry → String
  | [] => ""
  | e :: es => Log.writtenEntry r stamp e ++ journalText r stamp es

theorem run_writeJournal (r : Log.Registry) (es : List Journal.Entry) :
    (writeJournal (tableWorld stamp) r es).run fs = pure (journalText r stamp es, fs) := by
  induction es with
  | nil => rfl
  | cons e es ih =>
    have hstep : (writeJournal (tableWorld stamp) r (e :: es)).run fs =
        let rest := (writeJournal (tableWorld stamp) r es).run fs
        (Log.writtenEntry r stamp e ++ rest.1, rest.2) := rfl
    rw [hstep, ih]
    rfl

theorem run_write (path : String) (text : LooseText) :
    ((tableWorld stamp).write path text).run fs = pure (fs.write path text) := by
  simp only [tableWorld, StateT.run_modifyGet]

theorem run_deliver (output : Option String) (u : GeneratedUnit) (errors : String) :
    (deliver (tableWorld stamp) output u errors).run fs =
      match output.filter (· != "") with
      | none => (printed u.render errors, fs)
      | some path =>
        match fs.write path u.render with
        | (.ok _, fs') => (printed (summary path u) errors, fs')
        | (.error f, fs') => (⟨.raised (.file f), "", errors⟩, fs') := by
  unfold deliver
  cases output.filter (· != "") with
  | none => rfl
  | some path =>
    simp only [StateT.run_bind, run_write, pure_bind]
    rcases fs.write path u.render with ⟨result, fs'⟩
    cases result with
    | ok _ => rfl
    | error f => rfl

theorem printed_string (s errors : String) : printed s errors = ⟨.exit 0, s, errors⟩ := by
  simp [printed]

/-- The ways in which a request can end. -/
inductive Executed (load : Loader) (fs : Files) (q : Request) : Outcome → Files → Prop where
  | printed {u : GeneratedUnit} {text errors : String} (unit : attempt load fs q = .ok u)
      (aim : target q = none) (whole : u.render = text) :
      Executed load fs q ⟨.exit 0, text, errors⟩ fs
  | unprinted {u : GeneratedUnit} {f : EncodingFault} {errors : String}
      (unit : attempt load fs q = .ok u) (aim : target q = none)
      (fault : u.render.encode = .error f) :
      Executed load fs q ⟨.raised (.file (.ofText f)), "", errors⟩ fs
  | written {u : GeneratedUnit} {path note errors : String} {fs' : Files}
      (unit : attempt load fs q = .ok u) (aim : target q = some path)
      (write : fs.write path u.render = (.ok (), fs')) :
      Executed load fs q ⟨.exit 0, note, errors⟩ fs'
  | unwritten {u : GeneratedUnit} {path errors : String} {f : FileFault} {fs' : Files}
      (unit : attempt load fs q = .ok u) (aim : target q = some path)
      (write : fs.write path u.render = (.error f, fs')) :
      Executed load fs q ⟨.raised (.file f), "", errors⟩ fs'
  | refused {e : ConfigError} {log : String}
      (fault : attempt load fs q = .error (.failure (.config e))) :
      Executed load fs q
        ⟨.exit 1, "", log ++ (q.input ++ ": error[" ++ e.kind ++ "]: " ++ e.message ++ "\n")⟩ fs
  | broken {b : Breakdown} {errors : String} (fault : attempt load fs q = .error b)
      (other : ∀ e, b ≠ .failure (.config e)) : Executed load fs q ⟨.raised b, "", errors⟩ fs

/-- The loggers are not set up for a reason that has nothing to do with the board. -/
theorem loggersOf_ne_config {f : Failure} (h : loggersOf q = .error f) (e : ConfigError) :
    f ≠ .config e := by
  rintro rfl
  unfold loggersOf Log.Registry.setUp at h
  split at h
  · split at h
    · cases h
    · cases h
  · cases h

theorem run_read (path : String) :
    ((tableWorld stamp).read path).run fs = pure (fs.read path, fs) := rfl

theorem attempt_of_read {r : Log.Registry} {bytes : List UInt8} {text : String}
    (hloggers : loggersOf q = .ok r) (hread : fs.read q.input = .ok bytes)
    (hdecode : decode? bytes = some text) :
    attempt load fs q = (compile load text (Path.baseName q.input)).result.mapError .failure := by
  rw [attempt, hloggers, hread, compile]
  simp only [Except.mapError, ok_bind, hdecode, Option.elim]
  cases Board.ofText load text with
  | error f => rfl
  | ok b => rfl

/-- What is given out ends in one of four ways. -/
theorem executed_deliver {u : GeneratedUnit} (h : attempt load fs q = .ok u) (errors : String) :
    Executed load fs q ((deliver (tableWorld stamp) q.output u errors).run fs).1
      ((deliver (tableWorld stamp) q.output u errors).run fs).2 := by
  rw [run_deliver]
  cases htarget : q.output.filter (· != "") with
  | none =>
    cases hencode : u.render.encode with
    | ok content =>
      obtain ⟨text, hwhole, -⟩ := LooseText.encode_eq_ok_iff.1 hencode
      simp only [hwhole, printed_string]
      exact .printed h htarget hwhole
    | error f =>
      simp only [Command.printed, hencode]
      exact .unprinted h htarget hencode
  | some path =>
    rcases hwrite : fs.write path u.render with ⟨result, fs'⟩
    cases result with
    | ok _ =>
      -- A unit that has been written is a string, and so is what is said about it.
      obtain ⟨text, hwhole, -⟩ := (Files.Written.of_write hwrite).read
      obtain ⟨name, hname⟩ := u.exists_render_iff.1 ⟨text, hwhole⟩
      have hsummary : ∃ note : String, summary path u = note := by
        rw [summary, hname, ← LooseText.ofString_append, ← LooseText.ofString_append]
        exact ⟨_, rfl⟩
      obtain ⟨note, hnote⟩ := hsummary
      simp only [hwrite, hnote, printed_string]
      exact .written h htarget hwrite
    | error f =>
      simp only [hwrite]
      exact .unwritten h htarget hwrite

theorem executed_refused {e : ConfigError} {log : String}
    (h : attempt load fs q = .error (.failure (.config e))) :
    Executed load fs q ⟨.exit 1, "", log ++ errorLine q.input e⟩ fs := by
  have hline : errorLine q.input e =
      q.input ++ ": error[" ++ e.kind ++ "]: " ++ e.message ++ "\n" :=
    calc errorLine q.input e
      _ = q.input ++ (": " ++ "error[") ++ e.kind ++ "]: " ++ e.message ++ "\n" := by
        simp only [errorLine, ConfigError.report, String.append_assoc]
      _ = q.input ++ ": error[" ++ e.kind ++ "]: " ++ e.message ++ "\n" := rfl
  rw [hline]
  exact .refused h

/-- **A request ends in one of six ways.** -/
theorem executed_execute :
    Executed load fs q ((execute load (tableWorld stamp) q).run fs).1
      ((execute load (tableWorld stamp) q).run fs).2 := by
  unfold execute
  cases hloggers : loggersOf q with
  | error f =>
    have hattempt : attempt load fs q = .error (.failure f) := by
      rw [attempt, hloggers]
      rfl
    refine .broken hattempt fun e heq => ?_
    exact loggersOf_ne_config hloggers e (Breakdown.failure.inj heq)
  | ok r =>
    simp only [StateT.run_bind, run_read, pure_bind]
    cases hread : fs.read q.input with
    | error f =>
      have hattempt : attempt load fs q = .error (.file f) := by
        rw [attempt, hloggers, hread]
        rfl
      exact .broken hattempt fun e heq => by cases heq
    | ok bytes =>
      simp only
      cases hdecode : decode? bytes with
      | none =>
        have hattempt : attempt load fs q = .error .notText := by
          rw [attempt, hloggers, hread]
          simp only [Except.mapError, ok_bind, hdecode]
          rfl
        exact .broken hattempt fun e heq => by cases heq
      | some text =>
        have hattempt : attempt load fs q =
            (compile load text (Path.baseName q.input)).result.mapError .failure :=
          attempt_of_read hloggers hread hdecode
        simp only [StateT.run_bind, run_writeJournal, pure_bind]
        -- The unit is given out, and a fault is reported or ends the command.
        cases hresult : (compile load text (Path.baseName q.input)).result with
        | ok u =>
          rw [hresult] at hattempt
          exact executed_deliver hattempt _
        | error f =>
          rw [hresult] at hattempt
          cases f with
          | config e => exact executed_refused hattempt
          | _ => exact .broken hattempt fun e heq => by cases heq

/-- A request is carried out completely, or no file is changed, unless the name of the board is
torn. -/
structure AllOrNothing (load : Loader) (fs : Files) (q : Request) (o : Outcome) (fs' : Files) :
    Prop where
  /-- Only the file changes that the output path leads to.  It holds the unit then, or it is empty
  because the unit is no string. -/
  changed : ∀ r, fs'.content? r ≠ fs.content? r → ∃ u path, attempt load fs q = .ok u ∧
    (q.output = some path ∧ path ≠ "") ∧ fs'.locate path = .file r ∧
      ((∃ text : String, u.render = text ∧ o.ending = .exit 0 ∧
          fs'.content? r = some text.toUTF8.toList) ∨
        ∃ f, u.render.encode = .error f ∧ o.ending = .raised (.file (.ofText f)) ∧
          fs'.content? r = some [])
  /-- Without an output path a unit goes to standard output if it is a string. -/
  printed : ∀ u, attempt load fs q = .ok u → (q.output = none ∨ q.output = some "") → fs' = fs ∧
    ((∃ text : String, u.render = text ∧ o.ending = .exit 0 ∧ o.output = text) ∨
      ∃ f, u.render.encode = .error f ∧ o.ending = .raised (.file (.ofText f)) ∧ o.output = "")
  /-- With one it can be read there, unless it is a sink or the file cannot be written. -/
  written : ∀ u path, attempt load fs q = .ok u → (q.output = some path ∧ path ≠ "") →
    (∃ text : String, u.render = text ∧ o.ending = .exit 0 ∧
      (fs'.locate path = .sink ∨ fs'.read path = .ok text.toUTF8.toList)) ∨
    ∃ f, (fs.write path u.render).1 = .error f ∧ o.ending = .raised (.file f)
  /-- A fault of the board is reported, and nothing else is given out. -/
  refused : ∀ e, attempt load fs q = .error (.failure (.config e)) →
    o.ending = .exit 1 ∧ o.output = "" ∧ fs' = fs ∧ ∃ log,
      o.errors = log ++ (q.input ++ ": error[" ++ e.kind ++ "]: " ++ e.message ++ "\n")
  /-- Every other reason ends the command. -/
  broken : ∀ b, attempt load fs q = .error b → (∀ e, b ≠ .failure (.config e)) →
    o.ending = .raised b ∧ fs' = fs
  /-- No file is changed unless the command succeeds or the name of the board is torn. -/
  kept : o.ending ≠ .exit 0 →
    (∀ u, attempt load fs q = .ok u → ∃ name : String, u.boardName = name) →
      ∀ r, fs'.content? r = fs.content? r

/-- What is written is the unit, in one file, or nothing in the place of one that is no string. -/
theorem Executed.changed {o : Outcome} (h : Executed load fs q o fs') {r : Route}
    (hr : fs'.content? r ≠ fs.content? r) : ∃ u path, attempt load fs q = .ok u ∧
      (q.output = some path ∧ path ≠ "") ∧ fs'.locate path = .file r ∧
        ((∃ text : String, u.render = text ∧ o.ending = .exit 0 ∧
            fs'.content? r = some text.toUTF8.toList) ∨
          ∃ f, u.render.encode = .error f ∧ o.ending = .raised (.file (.ofText f)) ∧
            fs'.content? r = some []) := by
  have hsame : ∀ s, (∀ s', s' ≠ s → fs'.content? s' = fs.content? s') → r = s := by
    intro s hkept
    by_contra hne
    exact hr (hkept r hne)
  cases h with
  | printed => exact absurd rfl hr
  | unprinted => exact absurd rfl hr
  | refused => exact absurd rfl hr
  | broken => exact absurd rfl hr
  | unwritten unit aim write =>
    refine ⟨_, _, unit, target_eq_some_iff.1 aim, ?_⟩
    cases Files.Written.of_write write with
    | failed kept => exact absurd (kept r) hr
    | emptied fault place emptied kept =>
      obtain rfl := hsame _ kept
      exact ⟨place, Or.inr ⟨_, fault, rfl, emptied⟩⟩
  | written unit aim write =>
    refine ⟨_, _, unit, target_eq_some_iff.1 aim, ?_⟩
    cases Files.Written.of_write write with
    | swallowed _ _ kept => exact absurd (kept r) hr
    | stored whole place stored kept =>
      obtain rfl := hsame _ kept
      exact ⟨place, Or.inl ⟨_, whole, rfl, stored⟩⟩

theorem Executed.allOrNothing {o : Outcome} (h : Executed load fs q o fs') :
    AllOrNothing load fs q o fs' where
  changed r hr := h.changed hr
  kept hending hnames r := by
    by_contra hr
    obtain ⟨u, path, hu, -, -, ⟨text, -, hexit, -⟩ | ⟨f, hfault, -⟩⟩ := h.changed hr
    · exact hending hexit
    · obtain ⟨text, hwhole⟩ := u.exists_render_iff.2 (hnames u hu)
      rw [hwhole, LooseText.encode_ofString] at hfault
      cases hfault
  printed u hu houtput := by
    have haim := target_eq_none_iff.2 houtput
    cases h with
    | printed unit _ whole =>
      cases hu.symm.trans unit
      exact ⟨rfl, Or.inl ⟨_, whole, rfl, rfl⟩⟩
    | unprinted unit _ fault =>
      cases hu.symm.trans unit
      exact ⟨rfl, Or.inr ⟨_, fault, rfl, rfl⟩⟩
    | written _ aim => cases haim.symm.trans aim
    | unwritten _ aim => cases haim.symm.trans aim
    | refused fault => cases hu.symm.trans fault
    | broken fault => cases hu.symm.trans fault
  written u path hu houtput := by
    have haim := target_eq_some_iff.2 houtput
    cases h with
    | printed _ aim => cases haim.symm.trans aim
    | unprinted _ aim => cases haim.symm.trans aim
    | written unit aim write =>
      cases hu.symm.trans unit
      cases haim.symm.trans aim
      obtain ⟨text, hwhole, hread⟩ := (Files.Written.of_write write).read
      exact Or.inl ⟨text, hwhole, rfl, hread⟩
    | unwritten unit aim write =>
      cases hu.symm.trans unit
      cases haim.symm.trans aim
      exact Or.inr ⟨_, congrArg Prod.fst write, rfl⟩
    | refused fault => cases hu.symm.trans fault
    | broken fault => cases hu.symm.trans fault
  refused e he := by
    cases h with
    | printed unit => cases he.symm.trans unit
    | unprinted unit => cases he.symm.trans unit
    | written unit => cases he.symm.trans unit
    | unwritten unit => cases he.symm.trans unit
    | refused fault =>
      cases he.symm.trans fault
      exact ⟨rfl, rfl, rfl, _, rfl⟩
    | broken fault other =>
      cases he.symm.trans fault
      exact absurd rfl (other e)
  broken b hb hother := by
    cases h with
    | printed unit => cases hb.symm.trans unit
    | unprinted unit => cases hb.symm.trans unit
    | written unit => cases hb.symm.trans unit
    | unwritten unit => cases hb.symm.trans unit
    | refused fault =>
      cases hb.symm.trans fault
      exact absurd rfl (hother _)
    | broken fault =>
      cases hb.symm.trans fault
      exact ⟨rfl, rfl⟩

/-- **The command is all or nothing.**  A command line that is understood is carried out
completely, or leaves every file as it was; but a board with a torn name empties the file that it
is written to. -/
theorem runOn_all_or_nothing (lib : Libraries) (stamp : String) (fs : Files)
    (h : lib.parse argv = .ok q) :
    AllOrNothing lib.load fs q (runOn lib stamp fs argv).1 (runOn lib stamp fs argv).2 := by
  have hrun : runOn lib stamp fs argv = (execute lib.load (tableWorld stamp) q).run fs := by
    rw [runOn, run, h]
  rw [hrun]
  exact executed_execute.allOrNothing

/-- A table with the description of a board with one key. -/
def shelf : Files where
  files := [(["b.yaml"], ("board: \x7bname: x, chip: rp2040\x7d\nmatrix: " ++
    "\x7bdirect_pins: [[PIN_1]]\x7d\n").toUTF8.toList)]
  directories := []
  sinks := []
  start := []

/-- It is compiled, and the command carries that out or nothing. -/
theorem runOn_all_or_nothing_shelf :
    (attempt Document.read shelf ⟨"b.yaml", some "gen/o.rs", some "WARNING"⟩).toOption.isSome =
        true ∧
      AllOrNothing Document.read shelf ⟨"b.yaml", some "gen/o.rs", some "WARNING"⟩
        (runOn ⟨Arguments.read, Document.read⟩ "T" shelf ["b.yaml", "-o", "gen/o.rs"]).1
        (runOn ⟨Arguments.read, Document.read⟩ "T" shelf ["b.yaml", "-o", "gen/o.rs"]).2 :=
  ⟨by decide +kernel, runOn_all_or_nothing ⟨Arguments.read, Document.read⟩ "T" shelf rfl⟩

/-- A table with such a description in which the name of the board is torn, and with a file. -/
def tornShelf : Files where
  files := [(["b.yaml"], ("board: \x7bname: \"\\ud800\", chip: rp2040\x7d\nmatrix: " ++
    "\x7bdirect_pins: [[PIN_1]]\x7d\n").toUTF8.toList), (["o.rs"], "old".toUTF8.toList)]
  directories := []
  sinks := []
  start := []

/-- The command ends with an exception and leaves the file empty. -/
theorem runOn_tornShelf :
    (∃ f, (runOn ⟨Arguments.read, Document.read⟩ "T" tornShelf ["b.yaml", "-o", "o.rs"]).1.ending =
        .raised (.file (.ofText f))) ∧
      tornShelf.content? ["o.rs"] = some "old".toUTF8.toList ∧
      (runOn ⟨Arguments.read, Document.read⟩ "T" tornShelf ["b.yaml", "-o", "o.rs"]).2.content?
        ["o.rs"] = some [] := by
  have hfault : (match (runOn ⟨Arguments.read, Document.read⟩ "T" tornShelf
      ["b.yaml", "-o", "o.rs"]).1.ending with
    | .raised (.file (.ofText _)) => true
    | _ => false) = true := by decide +kernel
  refine ⟨?_, rfl, by decide +kernel⟩
  split at hfault
  · rename_i f hending
    exact ⟨f, hending⟩
  · cases hfault

end Command

end BoardWiring
