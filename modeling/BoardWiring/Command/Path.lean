import BoardWiring.Text.Pieces

/-!
# Paths

Paths of files, whose parts are separated by slashes.

* `Path.baseName` and `Path.directory` are the last part and what comes before it.
-/

namespace BoardWiring

namespace Command

namespace Path

/-- A slash. -/
def isSlash (c : Char) : Bool := c == '/'

/-- What follows the last slash. -/
def baseName (path : String) : String :=
  String.ofList (path.toList.reverse.takeWhile fun c => !isSlash c).reverse

/-- What comes before the last part, without the slashes between them unless there is nothing
else. -/
def directory (path : String) : String :=
  let head := (path.toList.reverse.dropWhile fun c => !isSlash c)
  let stripped := head.dropWhile isSlash
  String.ofList (if stripped.isEmpty then head.reverse else stripped.reverse)

/-- The parts of a path; some may be empty. -/
def parts (path : String) : List String :=
  (Text.pieces isSlash path.toList).map String.ofList

/-- The path starts at the topmost directory. -/
def isAbsolute (path : String) : Bool := path.toList.head? == some '/'

end Path

end Command

end BoardWiring
