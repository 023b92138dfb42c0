import PageLoom.Disk.Path

namespace PageLoom

/-!
# Disks

A disk holds files, links and directories, each at a location. The root is always there and
always a directory. Operations fail with the errors of the operating system.

* `IoError` — why an operation failed, and `IoError.message`, how that is told;
* `Location` — a place on a disk, as the names from the node up to the root;
* `Node` — what stands at a place;
* `Disk` — the nodes, and the location that relative paths start from;
* `Disk.node?`, `Disk.put`, `Disk.erase`, `Disk.children` — the view of a disk and its changes.
-/

/-- Why an operation on a disk failed. -/
inductive IoError where
  | notFound
  | alreadyExists
  | notDirectory
  | isDirectory
  | nameTooLong
  | tooManyLinks
  | notUtf8
  | nulInPath
  deriving DecidableEq, Repr

/-- The text of an error, as the operating system tells it. -/
def IoError.message : IoError → String
  | .notFound => "No such file or directory (os error 2)"
  | .alreadyExists => "File exists (os error 17)"
  | .notDirectory => "Not a directory (os error 20)"
  | .isDirectory => "Is a directory (os error 21)"
  | .nameTooLong => "File name too long (os error 36)"
  | .tooManyLinks => "Too many levels of symbolic links (os error 40)"
  | .notUtf8 => "stream did not contain valid UTF-8"
  | .nulInPath => "file name contained an unexpected NUL byte"

/-- A place on a disk: the names from the node up to the root, which has none. -/
abbrev Location := List String

/-- Bytes are compared as arrays. -/
local instance decidableEqBytes : DecidableEq ByteArray := ByteArray.instDecidableEq

/-- What stands at a place: a file with its bytes, a link with its target, or a directory. -/
inductive Node where
  | file (bytes : ByteArray)
  | link (target : Path)
  | dir
  deriving DecidableEq

/-- The nodes of a disk with their locations, and the place that relative paths start from. -/
structure Disk where
  nodes : List (Location × Node)
  home : Location

namespace Disk

/-- The disk with nothing but its root. -/
def empty : Disk :=
  ⟨[], []⟩

/-- What stands at a location. -/
def node? (disk : Disk) (location : Location) : Option Node :=
  if location = [] then some .dir else disk.nodes.lookup location

/-- The disk with a node put at a location, in place of what stood there. -/
def put (disk : Disk) (location : Location) (node : Node) : Disk :=
  { disk with nodes := (location, node) :: disk.nodes.filter (·.1 ≠ location) }

/-- The disk without a location and all below it. -/
def erase (disk : Disk) (location : Location) : Disk :=
  { disk with nodes := disk.nodes.filter fun entry => !location.isSuffixOf entry.1 }

/-- The names and nodes right below a location. -/
def children (disk : Disk) (location : Location) : List (String × Node) :=
  disk.nodes.filterMap fun
    | (name :: up, node) => if up = location then some (name, node) else none
    | ([], _) => none

/-- There is a directory at the location. -/
def isDir (disk : Disk) (location : Location) : Bool :=
  disk.node? location = some .dir

end Disk

end PageLoom
