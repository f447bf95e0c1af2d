import BoardWiring.Command.Path
import BoardWiring.Text.Encoding
import BoardWiring.Text.Quoted

/-!
# Files

A table of files and directories, and what can go wrong with them.  A path leads from the topmost
directory or from the one where the program runs; names and paths have a greatest length.

* `Files.locate` says where a path leads;
* `Files.read` and `Files.write` read and write a file by its path; writing makes the directories
  that are needed, and empties the file before the text is encoded.
-/

namespace BoardWiring

namespace Command

/-- Why a path does not lead to a file. -/
inductive PathFault where
  | missing
  | notDirectory
  | isDirectory
  | exists
  | tooLong
  | nullCharacter
  deriving DecidableEq, Inhabited

/-- Why a file cannot be read or written: a fault of its own path, one of the directories on the
way to a file that is to be written, or a text that cannot be encoded. -/
inductive FileFault where
  | ofPath (fault : PathFault) (path : String)
  | ofDirectory (fault : PathFault)
  | ofText (fault : EncodingFault)
  deriving DecidableEq, Inhabited

/-- The message of a fault of a path. -/
def PathFault.message (path : String) : PathFault → String
  | .missing => "[Errno 2] No such file or directory: " ++ Quoted.text path
  | .exists => "[Errno 17] File exists: " ++ Quoted.text path
  | .notDirectory => "[Errno 20] Not a directory: " ++ Quoted.text path
  | .isDirectory => "[Errno 21] Is a directory: " ++ Quoted.text path
  | .tooLong => "[Errno 36] File name too long: " ++ Quoted.text path
  | .nullCharacter => "embedded null byte"

/-- The message of a fault, if it has one. -/
def FileFault.message? : FileFault → Option String
  | .ofPath fault path => some (fault.message path)
  | .ofDirectory _ => none
  | .ofText fault => some fault.message

/-- The names from the topmost directory down to a file. -/
abbrev Route := List String

/-- A table of files and directories. -/
structure Files where
  /-- Files with their contents. -/
  files : List (Route × List UInt8)
  /-- Directories; those on the way to something else need not be listed. -/
  directories : List Route
  /-- Files that stay empty whatever is written to them. -/
  sinks : List Route
  /-- The directory where the program runs. -/
  start : Route
  deriving Inhabited

/-- Where a path leads. -/
inductive Location where
  | file (route : Route)
  | directory
  | vacant (route : Route)
  | sink
  | nowhere (fault : PathFault)
  deriving DecidableEq

namespace Files

/-- The contents of a file. -/
def content? (fs : Files) (r : Route) : Option (List UInt8) := fs.files.lookup r

/-- A route is on the way to another. -/
def isAbove (r s : Route) : Bool := r.isPrefixOf s && r.length < s.length

/-- There is a directory. -/
def isDirectory (fs : Files) (r : Route) : Bool :=
  r.isPrefixOf fs.start || fs.directories.any (fun d => r.isPrefixOf d) ||
    fs.files.any (fun f => isAbove r f.1) || fs.sinks.any (isAbove r)

/-- The greatest number of bytes of a name. -/
def maxName : Nat := 255

/-- The greatest number of bytes of a path. -/
def maxPath : Nat := 4095

/-- Where the parts of a path lead from a directory. -/
def walk (fs : Files) (here : Route) : List String → Location
  | [] => .directory
  | name :: rest =>
    if name = "" ∨ name = "." then walk fs here rest
    else if name = ".." then walk fs here.dropLast rest
    else if maxName < name.utf8ByteSize then .nowhere .tooLong
    else
      let next := here ++ [name]
      if fs.isDirectory next then walk fs next rest
      else if fs.sinks.contains next then if rest.isEmpty then .sink else .nowhere .notDirectory
      else if (fs.content? next).isSome then
        if rest.isEmpty then .file next else .nowhere .notDirectory
      else if rest.isEmpty then .vacant next
      else .nowhere .missing

/-- Where a path leads. -/
def locate (fs : Files) (path : String) : Location :=
  if path.toList.contains '\x00' then .nowhere .nullCharacter
  else if path = "" then .nowhere .missing
  else if maxPath < path.utf8ByteSize then .nowhere .tooLong
  else fs.walk (if Path.isAbsolute path then [] else fs.start) (Path.parts path)

/-- The contents of the file with a path. -/
def read (fs : Files) (path : String) : Except FileFault (List UInt8) :=
  match fs.locate path with
  | .file r => .ok ((fs.content? r).getD [])
  | .sink => .ok []
  | .directory => .error (.ofPath .isDirectory path)
  | .vacant _ => .error (.ofPath .missing path)
  | .nowhere f => .error (.ofPath f path)

/-- Makes one more directory, unless it is there. -/
def makeDirectory (fs : Files) (path : String) : Except FileFault Unit × Files :=
  match fs.locate path with
  | .vacant r => (.ok (), { fs with directories := r :: fs.directories })
  | .directory => (.ok (), fs)
  | .file _ | .sink => (.error (.ofDirectory .exists), fs)
  | .nowhere f => (.error (.ofDirectory f), fs)

/-- There is something where a path leads. -/
def exists? (fs : Files) (path : String) : Bool :=
  match fs.locate path with
  | .file _ | .directory | .sink => true
  | _ => false

/-- Makes a directory and those above it, `fuel` at most.  Those that have been made stay if a
later one cannot be made. -/
def makeDirectories : Nat → Files → String → Except FileFault Unit × Files
  | 0, fs, _ => (.ok (), fs)
  | fuel + 1, fs, path =>
    let above := Path.directory path
    if above = "" ∨ fs.exists? above then fs.makeDirectory path
    else
      match makeDirectories fuel fs above with
      | (.ok _, fs) => fs.makeDirectory path
      | (.error f, fs) => (.error f, fs)

/-- The directory in which a file is to be written. -/
def directoryOf (path : String) : String :=
  if Path.directory path = "" then "." else Path.directory path

/-- A file with new contents. -/
def put (fs : Files) (r : Route) (content : List UInt8) : Files :=
  { fs with files := (r, content) :: fs.files.filter fun f => f.1 != r }

/-- Writes a text into a file.  If it cannot be encoded, the file stays behind empty. -/
def putText (fs : Files) (r : Route) (text : LooseText) : Except FileFault Unit × Files :=
  match text.encode with
  | .ok content => (.ok (), fs.put r content)
  | .error f => (.error (.ofText f), fs.put r [])

/-- Writes a file, and makes the directories on the way to it. -/
def write (fs : Files) (path : String) (text : LooseText) : Except FileFault Unit × Files :=
  match makeDirectories (path.length + 1) fs (directoryOf path) with
  | (.error f, fs) => (.error f, fs)
  | (.ok _, fs) =>
    match fs.locate path with
    | .file r | .vacant r => fs.putText r text
    | .sink => (text.encode.mapError FileFault.ofText |>.map fun _ => (), fs)
    | .directory => (.error (.ofPath .isDirectory path), fs)
    | .nowhere f => (.error (.ofPath f path), fs)

end Files

end Command

end BoardWiring
