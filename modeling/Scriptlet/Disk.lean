import Scriptlet.Text.Field
import Scriptlet.Text.Lines
import Scriptlet.Text.Quoted

/-! # Files

What a command line needs to know of the files it names: what is there, what it holds, and why it
cannot be read. Paths are relative to the working directory. A path is followed piece by piece, and
only a directory has anything behind it: a file with a slash after it leads nowhere. -/

namespace Scriptlet

/-- What there is at a path. -/
inductive Entry where
  /-- A file with its raw characters. -/
  | file (raw : String)
  /-- A directory. -/
  | directory
  deriving Repr, DecidableEq

/-- What stands in the way along a path. -/
inductive Obstacle where
  /-- There is nothing. -/
  | missing
  /-- There is a file where a directory is needed. -/
  | notDirectory
  /-- There is a directory where a file is needed. -/
  | isDirectory
  /-- A name, or the path as a whole, is too long. -/
  | tooLong
  deriving Repr, DecidableEq

namespace Obstacle

/-- The number of an obstacle. -/
def code : Obstacle → Nat
  | .missing => 2
  | .notDirectory => 20
  | .isDirectory => 21
  | .tooLong => 36

/-- An obstacle in words. -/
def reason : Obstacle → String
  | .missing => "No such file or directory"
  | .notDirectory => "Not a directory"
  | .isDirectory => "Is a directory"
  | .tooLong => "File name too long"

end Obstacle

/-- Why a file cannot be read. -/
inductive DiskFault where
  /-- Something stands in the way along its path. -/
  | blocked (obstacle : Obstacle) (path : String)
  /-- Its path holds a zero character, which no name does. -/
  | zeroCharacter
  /-- It has no path. -/
  | noPath
  deriving Repr, DecidableEq

namespace DiskFault

/-- What a fault says. -/
def message : DiskFault → String
  | .blocked obstacle path =>
    "[Errno " ++ toString obstacle.code ++ "] " ++ obstacle.reason ++ ": " ++ Text.quoted path
  | .zeroCharacter => "embedded null byte"
  | .noPath => "expected str, bytes or os.PathLike object, not NoneType"

/-- Whether a fault only means that there is nothing at the path. -/
def isAbsence : DiskFault → Bool
  | .blocked .missing _ | .blocked .notDirectory _ | .zeroCharacter => true
  | _ => false

end DiskFault

/-- A view of the files. -/
structure Disk where
  /-- What there is at a path, or why it cannot be reached. -/
  find : String → Except DiskFault Entry

namespace Disk

/-! ## Looking at files -/

/-- What there is at a path, if anything; a path that is too long cannot even be looked up. -/
def lookUp (disk : Disk) (path : String) : Except DiskFault (Option Entry) :=
  match disk.find path with
  | .ok entry => .ok (some entry)
  | .error fault => if fault.isAbsence then .ok none else .error fault

/-- The text of the file at a path. -/
def read (disk : Disk) (path : String) : Except DiskFault String :=
  match disk.find path with
  | .ok (.file raw) => .ok (Text.ofRaw raw)
  | .ok .directory => .error (.blocked .isDirectory path)
  | .error fault => .error fault

/-- The text of the file at a path that may not be known. -/
def readNamed (disk : Disk) : Option String → Except DiskFault String
  | some path => disk.read path
  | none => .error .noPath

/-! ## Paths -/

/-- The pieces of a path between slashes. -/
def splitSlashes : List Char → List (List Char)
  | [] => [[]]
  | c :: rest =>
    if c = '/' then [] :: splitSlashes rest else Text.consLine c (splitSlashes rest)

/-- The pieces of a path, those that lead nowhere included. -/
def pieces (path : String) : List String :=
  (splitSlashes path.toList).map String.ofList

/-- Whether a piece leads nowhere: it is empty or a single point. -/
def isIdle (piece : String) : Bool :=
  piece == "" || piece == "."

/-- The steps of a path: its pieces without those that lead nowhere. -/
def steps (path : String) : List String :=
  (pieces path).filter (!isIdle ·)

/-- The slashes that a path starts at the top with: two of them stay two, and more count as one. -/
def top (path : String) : String :=
  match path.toList.takeWhile (· == '/') with
  | [] => ""
  | ['/', '/'] => "//"
  | _ => "/"

/-- A path without the pieces that lead nowhere. -/
def tidy (path : String) : String :=
  let tidied := top path ++ Text.join "/" (steps path)
  if tidied.isEmpty then "." else tidied

/-- The suffix of the last step of a path: from its last point on, unless the point is first or
last. -/
def suffix (path : String) : String :=
  let name := ((steps path).getLast?.getD "").toList
  let tail := (name.reverse.takeWhile (· != '.')).reverse
  if tail.isEmpty || name.length ≤ tail.length + 1 then "" else String.ofList ('.' :: tail)

/-! ## A disk of given files -/

/-- How many bytes a name may have. -/
def nameLimit : Nat := 255

/-- How many bytes a path may have. -/
def pathLimit : Nat := 4095

/-- Where a path leads. -/
inductive Location where
  /-- Somewhere in the working directory. -/
  | within (steps : List String)
  /-- To a directory around the working directory, of which nothing else is known. -/
  | above
  deriving Repr, DecidableEq

namespace Location

/-- The directory around a location. -/
def parent : Location → Location
  | .within [] | .above => .above
  | .within here => .within here.dropLast

/-- The location of a name in a directory, if something is known of it. -/
def child? (name : String) : Location → Option Location
  | .within here => some (.within (here ++ [name]))
  | .above => none

end Location

/-- The directories on the way to a file. -/
def ancestors (steps : List String) : List (List String) :=
  (List.range steps.length).map fun count => steps.take count

/-- What there is at a location, given the steps to every file and its raw characters. -/
def entryAt? (files : List (List String × String)) : Location → Option Entry
  | .above => some .directory
  | .within here =>
    match files.find? (·.1 == here) with
    | some file => some (.file file.2)
    | none =>
      if here.isEmpty || files.any fun file => (ancestors file.1).contains here then some .directory
      else none

/-- Follows pieces from a location; there has to be a directory wherever a piece is left. -/
def follow (files : List (List String × String)) : Location → List String → Except Obstacle Location
  | here, [] => .ok here
  | here, piece :: rest =>
    match entryAt? files here with
    | none => .error .missing
    | some (.file _) => .error .notDirectory
    | some .directory =>
      if isIdle piece then follow files here rest
      else if piece = ".." then follow files here.parent rest
      else if nameLimit < piece.utf8ByteSize then .error .tooLong
      else
        match here.child? piece with
        | some there => follow files there rest
        | none => .error .missing

/-- What there is along a path. -/
def resolve (files : List (List String × String)) (path : String) : Except Obstacle Entry :=
  if path.isEmpty then .error .missing
  else if pathLimit < path.utf8ByteSize then .error .tooLong
  else
    match follow files (if Text.begins "/" path then .above else .within []) (pieces path) with
    | .error obstacle => .error obstacle
    | .ok there =>
      match entryAt? files there with
      | some entry => .ok entry
      | none => .error .missing

/-- A view of files given by their paths and raw characters. Their paths tell the directories. -/
def ofFiles (files : List (String × String)) : Disk where
  find path :=
    if path.toList.contains (Char.ofNat 0) then .error .zeroCharacter
    else
      match resolve (files.map fun file => (steps file.1, file.2)) path with
      | .ok entry => .ok entry
      | .error obstacle => .error (.blocked obstacle path)

end Disk

end Scriptlet
