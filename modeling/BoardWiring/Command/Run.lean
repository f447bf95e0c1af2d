import BoardWiring.Command.Arguments
import BoardWiring.Command.Files
import BoardWiring.Board.Reader
import BoardWiring.Log.Output

/-!
# The command

Reads a board description from a file, compiles it, and writes the unit to a file or to standard
output.  Nothing is written unless everything before has succeeded.

* `Command.Libraries` are the parser of command lines and the loader of documents that it uses;
* `Command.run` carries a command line out, in any world that has files and a clock;
* `Command.runOn` does so on a table of files.
-/

namespace BoardWiring

namespace Command

/-- How a command ends early with an exception. -/
inductive Breakdown where
  | failure (f : Failure)
  | file (f : FileFault)
  | notText
  deriving Inhabited

/-- How a command ends. -/
inductive Ending where
  | exit (status : Nat)
  | raised (b : Breakdown)
  deriving Inhabited

/-- What a command leaves behind, its files apart. -/
structure Outcome where
  /-- How it ends. -/
  ending : Ending
  /-- Text on standard output. -/
  output : String
  /-- Text on standard error. -/
  errors : String
  deriving Inhabited

/-- What the command takes from elsewhere. -/
structure Libraries where
  /-- The parser of command lines. -/
  parse : List String → Except Refusal Request
  /-- The loader of documents. -/
  load : Loader

/-- What a command needs from its surroundings. -/
structure World (m : Type → Type) where
  /-- The contents of a file. -/
  read : String → m (Except FileFault (List UInt8))
  /-- Writes a file and makes the directories on the way to it. -/
  write : String → LooseText → m (Except FileFault Unit)
  /-- The time stamp of now. -/
  stamp : m String

/-- The logger of the whole program. -/
def logger : String := "tools.boardgen"

/-- A text with one kind of line break. -/
def unifyBreaks : List Char → List Char
  | '\r' :: '\n' :: cs => '\n' :: unifyBreaks cs
  | '\r' :: cs => '\n' :: unifyBreaks cs
  | c :: cs => c :: unifyBreaks cs
  | [] => []

/-- The text of a file. -/
def decode? (bytes : List UInt8) : Option String :=
  (String.fromUTF8? ⟨bytes.toArray⟩).map fun s => String.ofList (unifyBreaks s.toList)

/-- A board as far as it can be compiled: what is logged, and the unit. -/
structure Compilation where
  /-- Entries of the journal. -/
  journal : List Journal.Entry
  /-- The unit, or why there is none. -/
  result : Except Failure GeneratedUnit

/-- Compiles the text of a description. -/
def compile (load : Loader) (text source : String) : Compilation :=
  match Board.ofText load text with
  | .error f => ⟨[], .error f⟩
  | .ok b => ⟨Journal.ofBoard b, b.generate source⟩

/-- The line that reports an error in a file. -/
def errorLine (path : String) (e : ConfigError) : String := path ++ ": " ++ e.report ++ "\n"

/-- The text that says what has been written. -/
def summary (path : String) (u : GeneratedUnit) : LooseText :=
  ("  wrote " ++ path ++ "\n\nGenerated " ++ Digits.decimal u.bindings.length ++
    " bindings for board '" : String) ++ u.boardName ++ ("'\n" : LooseText)

/-- How a command ends that prints a text. -/
def printed (text : LooseText) (errors : String) : Outcome :=
  match text.encode with
  | .ok _ => ⟨.exit 0, String.ofList text.characters, errors⟩
  | .error f => ⟨.raised (.file (.ofText f)), "", errors⟩

section

variable {m : Type → Type} [Monad m]

/-- The text that the loggers write of a journal. -/
def writeJournal (w : World m) (r : Log.Registry) : List Journal.Entry → m String
  | [] => pure ""
  | e :: es => do
    let stamp ← w.stamp
    let rest ← writeJournal w r es
    pure (Log.writtenEntry r stamp e ++ rest)

/-- Gives out a unit. -/
def deliver (w : World m) (output : Option String) (u : GeneratedUnit) (errors : String) :
    m Outcome :=
  match output.filter (· != "") with
  | none => pure (printed u.render errors)
  | some path => do
    match ← w.write path u.render with
    | .ok _ => pure (printed (summary path u) errors)
    | .error f => pure ⟨.raised (.file f), "", errors⟩

/-- The loggers at the level of a request. -/
def loggersOf (q : Request) : Except Failure Log.Registry :=
  match q.level with
  | some level => Log.loggers.setUp logger level
  | none => .error .missingLevel

/-- Carries a request out. -/
def execute (load : Loader) (w : World m) (q : Request) : m Outcome := do
  match loggersOf q with
  | .error f => pure ⟨.raised (.failure f), "", ""⟩
  | .ok r =>
    match ← w.read q.input with
    | .error f => pure ⟨.raised (.file f), "", ""⟩
    | .ok bytes =>
      match decode? bytes with
      | none => pure ⟨.raised .notText, "", ""⟩
      | some text =>
        let c := compile load text (Path.baseName q.input)
        let errors ← writeJournal w r c.journal
        match c.result with
        | .ok u => deliver w q.output u errors
        | .error (.config e) => pure ⟨.exit 1, "", errors ++ errorLine q.input e⟩
        | .error f => pure ⟨.raised (.failure f), "", errors⟩

/-- Carries a command line out. -/
def run (lib : Libraries) (w : World m) (argv : List String) : m Outcome :=
  match lib.parse argv with
  | .error .help => pure ⟨.exit 0, helpText, ""⟩
  | .error (.complaint c) => pure ⟨.exit 2, "", complaintText c⟩
  | .ok q => execute lib.load w q

end

/-! ### On a table of files -/

/-- A world of files in which it is always the same time. -/
def tableWorld (stamp : String) : World (StateM Files) where
  read path := do return (← get).read path
  write path text := modifyGet fun fs => fs.write path text
  stamp := pure stamp

/-- What a command line leaves behind, and the files after it. -/
def runOn (lib : Libraries) (stamp : String) (fs : Files) (argv : List String) :
    Outcome × Files :=
  (run lib (tableWorld stamp) argv).run fs

end Command

end BoardWiring
