import UiStyle.Text.Utf8

/-!
# Disks

A path is a text; what stands between its slashes are its pieces, an empty one for two slashes in a
row or a slash at the end.  Joining puts one path behind another, unless the other is absolute and
replaces it.

A disk maps places to directories and files; a place is the list of names that leads to it from the
root, which is always a directory.  A path is followed piece by piece, and each piece needs a
directory to stand in: `.` and an empty piece stay there, `..` goes up, a name goes down to what
must exist.  So `..` behind a missing directory leads nowhere, and a slash behind a file neither.

What a program does with files comes down to four operations (`Files`).  A disk offers them by
changing; another instance can reach for real files.
-/

/-! ### Paths -/

namespace UiStyle.Path

/-- Whether a path starts at the root. -/
def isAbsolute (path : String) : Bool :=
  path.toList.head? == some '/'

/-- The pieces of a text between slashes. -/
def splitSlashes : List Char → List (List Char)
  | [] => [[]]
  | c :: rest =>
    if c = '/' then [] :: splitSlashes rest
    else
      match splitSlashes rest with
      | [] => [[c]]
      | piece :: pieces => (c :: piece) :: pieces

/-- The pieces of a path behind the slash that an absolute one starts with. -/
def pieces (path : String) : List String :=
  (splitSlashes (if isAbsolute path then path.toList.drop 1 else path.toList)).map .ofList

/-- The path `base` as seen from a directory. -/
def join (directory base : String) : String :=
  if isAbsolute base then base
  else if directory.isEmpty || directory.toList.getLast? == some '/' then directory ++ base
  else directory ++ "/" ++ base

/-- The pieces that lead anywhere: an empty piece stands for nothing, and a single dot only counts
at the start of a path that is not absolute. -/
def components (path : String) : List String :=
  match isAbsolute path, pieces path with
  | false, "." :: rest => "." :: rest.filter fun p => p != "" && p != "."
  | _, all => all.filter fun p => p != "" && p != "."

end UiStyle.Path

/-! ### Disks -/

namespace UiStyle

/-- Why a path cannot be followed or changed. -/
inductive DiskError
  | notFound
  | alreadyExists
  | notDirectory
  | isDirectory
  | nameTooLong
  | nulInPath
  deriving DecidableEq

/-- The text of a disk error. -/
def DiskError.message : DiskError → String
  | .notFound => "No such file or directory (os error 2)"
  | .alreadyExists => "File exists (os error 17)"
  | .notDirectory => "Not a directory (os error 20)"
  | .isDirectory => "Is a directory (os error 21)"
  | .nameTooLong => "File name too long (os error 36)"
  | .nulInPath => "file name contained an unexpected NUL byte"

/-- What is at a place. -/
inductive Node
  | directory
  | file (content : List UInt8)
  deriving DecidableEq

/-- What is at which place, the root apart, and the directory that paths start in. -/
structure Disk where
  nodes : List (List String × Node) := []
  start : List String := []

namespace Disk

/-- A disk with nothing on it but the directory that paths start in and those above it. -/
def startingIn (place : List String) : Disk where
  nodes := (List.range place.length).map fun n => (place.take (n + 1), .directory)
  start := place

/-- The most bytes that a name may have. -/
def nameLimit : Nat := 255

/-- The most bytes that a path may have. -/
def pathLimit : Nat := 4095

/-- What is at a place. -/
def node? (d : Disk) (place : List String) : Option Node :=
  if place.isEmpty then some .directory else d.nodes.lookup place

/-- The disk with something else at a place. -/
def setNode (d : Disk) (place : List String) (n : Node) : Disk :=
  { d with nodes := (place, n) :: d.nodes.filter fun entry => entry.1 != place }

/-! ### Following paths -/

/-- The place of a name in a directory, whether or not something is there. -/
def child (d : Disk) (place : List String) (name : String) : Except DiskError (List String) :=
  match d.node? place with
  | none => .error .notFound
  | some (.file _) => .error .notDirectory
  | some .directory =>
    if nameLimit < name.utf8ByteSize then .error .nameTooLong else .ok (place ++ [name])

/-- Follows one piece of a path. -/
def follow (d : Disk) (place : List String) (piece : String) : Except DiskError (List String) := do
  let down ← d.child place piece
  if piece = "" ∨ piece = "." then return place
  else if piece = ".." then return place.dropLast
  else if (d.node? down).isNone then throw .notFound
  else return down

/-- Where the pieces of a path start. -/
def origin (d : Disk) (path : String) : Except DiskError (List String) :=
  if path.toList.contains '\x00' then .error .nulInPath
  else if pathLimit < path.utf8ByteSize then .error .nameTooLong
  else if path.isEmpty then .error .notFound
  else .ok (if Path.isAbsolute path then [] else d.start)

/-- The place that a path leads to. -/
def resolve (d : Disk) (path : String) : Except DiskError (List String) := do
  (Path.pieces path).foldlM d.follow (← d.origin path)

/-- What a path leads to. -/
def at? (d : Disk) (path : String) : Except DiskError Node := do
  match d.node? (← d.resolve path) with
  | some n => return n
  | none => throw .notFound

/-- Whether a path leads to anything. -/
def has (d : Disk) (path : String) : Bool :=
  (d.at? path).toBool

/-- Whether a path leads to a directory. -/
def isDirectory (d : Disk) (path : String) : Bool :=
  match d.at? path with
  | .ok .directory => true
  | _ => false

/-- The bytes of the file that a path leads to. -/
def read (d : Disk) (path : String) : Except DiskError (List UInt8) := do
  match ← d.at? path with
  | .file content => return content
  | .directory => throw .isDirectory

/-! ### Changing a disk -/

/-- The place that pieces lead to whose last one need not exist.  There is none if the last piece is
no name. -/
def newPlace (d : Disk) (start : List String) (pieces : List String) :
    Except DiskError (Option (List String)) := do
  match pieces.getLast? with
  | none => return none
  | some last =>
    let parent ← pieces.dropLast.foldlM d.follow start
    let place ← d.child parent last
    return if last = "" ∨ last = "." ∨ last = ".." then none else some place

/-- Makes a directory, whose path may end in slashes. -/
def makeDirectory (d : Disk) (path : String) : Except DiskError Disk := do
  let start ← d.origin path
  let pieces := ((Path.pieces path).reverse.dropWhile (· == "")).reverse
  match ← d.newPlace start pieces with
  | none => throw .alreadyExists
  | some place =>
    if (d.node? place).isSome then throw .alreadyExists
    else return d.setNode place .directory

/-- Writes a file, which is made or emptied first. -/
def write (d : Disk) (path : String) (content : List UInt8) : Except DiskError Disk := do
  let start ← d.origin path
  match ← d.newPlace start (Path.pieces path) with
  | none => throw .isDirectory
  | some place =>
    if d.node? place = some .directory then throw .isDirectory
    else return d.setNode place (.file content)

/-- The path of some components. -/
def ofComponents (absolute : Bool) (components : List String) : String :=
  (if absolute then "/" else "") ++ "/".intercalate components

/-- Makes the directory of a path unless it is there already. -/
def ensureDirectory (d : Disk) (path : String) : Disk × Option DiskError :=
  match d.makeDirectory path with
  | .ok d' => (d', none)
  | .error e => (d, if d.isDirectory path then none else some e)

/-- Makes the directory of a path and, where it is not found, those above it first, whose components
are given in reverse. -/
def makeAbove (d : Disk) (absolute : Bool) (path : String) : List String → Disk × Option DiskError
  | [] => d.ensureDirectory path
  | _ :: above =>
    match d.makeDirectory path with
    | .error .notFound =>
      let parent := ofComponents absolute above.reverse
      let (d', failed) := if parent.isEmpty then (d, none) else d.makeAbove absolute parent above
      match failed with
      | some e => (d', some e)
      | none => d'.ensureDirectory path
    | _ => d.ensureDirectory path

/-- Makes the directory of a path together with those above it.  Where that fails, the directories
made so far stay. -/
def makeDirectories (d : Disk) (path : String) : Disk × Option DiskError :=
  if path.isEmpty then (d, none)
  else d.makeAbove (Path.isAbsolute path) path (Path.components path).reverse

/-- Writes a file and makes the directories above it. -/
def put (d : Disk) (path : String) (content : List UInt8) : Except DiskError Disk :=
  let above := (Path.components path).dropLast
  match d.makeDirectories (ofComponents (Path.isAbsolute path) above) with
  | (_, some e) => .error e
  | (d', none) => d'.write path content

/-- Everything below the directory that paths start in, by the names that lead there from it. -/
def below (d : Disk) : List (List String × Node) :=
  d.nodes.filterMap fun (place, n) =>
    if d.start.isPrefixOf place && d.start.length < place.length then
      some (place.drop d.start.length, n)
    else none

end Disk

/-! ### Access to files -/

/-- The operations on files; each that can fail answers with the system's words. -/
structure Files (m : Type → Type) where
  read : String → m (Except String (List UInt8))
  has : String → m Bool
  makeDirectories : String → m (Option String)
  write : String → List UInt8 → m (Option String)

/-- The files of a disk. -/
def Disk.files : Files (StateM Disk) where
  read path := return ((← get).read path).mapError DiskError.message
  has path := return (← get).has path
  makeDirectories path := do
    let (d, failed) := (← get).makeDirectories path
    set d
    return failed.map DiskError.message
  write path content := do
    match (← get).write path content with
    | .ok d => set d; return none
    | .error e => return some e.message

end UiStyle
