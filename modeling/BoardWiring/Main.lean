import BoardWiring.Command.Run
import BoardWiring.Document.Basic
import Std.Time.DateTime.Timestamp

/-!
# The program

The command on the files of the system, with the parser of command lines and the loader of
documents of this library.
-/

namespace BoardWiring

namespace Program

open Command

/-- The fault that a failed access to a file shows. -/
def faultOf : IO.Error → PathFault
  | .noFileOrDirectory .. => .missing
  | .alreadyExists .. => .exists
  | .invalidArgument .. => .tooLong
  | .inappropriateType _ code _ => if code = 21 then .isDirectory else .notDirectory
  | _ => .isDirectory

/-- The bytes of a file. -/
def readFile (path : String) : IO (Except FileFault (List UInt8)) := do
  try
    let bytes ← IO.FS.readBinFile path
    pure (.ok bytes.toList)
  catch e => pure (.error (.ofPath (faultOf e) path))

/-- Makes a directory and those above it. -/
def makeDirectories (path : String) : IO (Option FileFault) := do
  try
    IO.FS.createDirAll path
    pure none
  catch e => pure (some (.ofDirectory (faultOf e)))

/-- Writes a file and makes the directories on the way to it. -/
def writeFile (path : String) (text : LooseText) : IO (Except FileFault Unit) := do
  match ← makeDirectories (Files.directoryOf path) with
  | some fault => pure (.error fault)
  | none =>
    try
      match text.encode with
      | .ok content =>
        IO.FS.writeBinFile path ⟨content.toArray⟩
        pure (.ok ())
      | .error fault =>
        IO.FS.writeBinFile path .empty
        pure (.error (.ofText fault))
    catch e => pure (.error (.ofPath (faultOf e) path))

/-- The time stamp of now. -/
def stampNow : IO String := do
  let now ← Std.Time.Timestamp.now
  let micros := now.toNanosecondsSinceUnixEpoch.val.fdiv 1000
  match Log.Clock.moment (micros.fdiv 1000000) (micros % 1000000) with
  | .ok moment => pure moment.stamp
  | .error _ => pure ""

/-- The files and the clock of the system. -/
def systemWorld : World IO := ⟨readFile, writeFile, stampNow⟩

/-- The libraries of the program. -/
def libraries : Libraries := ⟨Arguments.read, Document.read⟩

/-- The text of an exception that ends the program. -/
def breakdownText : Breakdown → String
  | .failure f => f.message?.getD "the description cannot be read"
  | .file f => f.message?.getD "the output cannot be written"
  | .notText => "the description is no text"

/-- Runs the program. -/
def start (args : List String) : IO UInt32 := do
  let outcome ← run libraries systemWorld args
  IO.print outcome.output
  IO.eprint outcome.errors
  match outcome.ending with
  | .exit status => pure status.toUInt32
  | .raised b =>
    IO.eprintln (breakdownText b)
    pure 1

end Program

end BoardWiring

/-- The program. -/
def main (args : List String) : IO UInt32 := BoardWiring.Program.start args
