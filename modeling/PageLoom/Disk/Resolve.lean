import PageLoom.Disk.Basic

namespace PageLoom

/-!
# Following a path

A path is followed step by step from the root or from the disk's home. Every step starts in a
directory. A link on the way is replaced by its target, at most forty times; a link at the end
only if the caller asks for it.

* `Place` — where a path leads: to a node, or to a free name in a directory;
* `Disk.advance` — the steps up to the end or to the next link;
* `Path.fault?` — why a path cannot be followed on any disk;
* `Disk.locate`, `Disk.locateEntry` — the place that a path leads to.
-/

/-- Where a path leads: to a node that is there, or to a free name in a directory. -/
inductive Place where
  | taken (location : Location) (node : Node)
  | free (location : Location)

/-- How far steps lead without following a link. -/
inductive Hop where
  | arrived (place : Place)
  | link (directory : Location) (target : Path) (rest : List Step)

/-- The largest number of bytes in a name. -/
def nameLimit : Nat := 255

/-- The number of bytes from which on a path is too long. -/
def pathLimit : Nat := 4096

/-- The number of links that are followed on one path. -/
def linkLimit : Nat := 40

/-- The location that a path met in a directory starts from. -/
def Path.origin (path : Path) (directory : Location) : Location :=
  if path.isAbsolute then [] else directory

/-- Why a path cannot be followed on any disk: it is empty, holds a NUL, or is too long. -/
def Path.fault? (path : Path) : Option IoError :=
  if path.text.isEmpty then some .notFound
  else if '\x00' ∈ path.text.toList then some .nulInPath
  else if path.text.utf8ByteSize ≥ pathLimit then some .nameTooLong
  else none

namespace Disk

/-- Follows steps from a node up to the end or to the next link. A link at the very end is
    the place itself unless `follow` is set. -/
def advance (disk : Disk) (follow : Bool) (location : Location) : List Step → Except IoError Hop
  | [] =>
    match disk.node? location with
    | some node => .ok (.arrived (.taken location node))
    | none => .error .notFound
  | step :: rest =>
    if !disk.isDir location then .error .notDirectory
    else
      match step with
      | .stay => disk.advance follow location rest
      | .up => disk.advance follow location.tail rest
      | .down name =>
        if name.utf8ByteSize > nameLimit then .error .nameTooLong
        else
          match disk.node? (name :: location) with
          | none =>
            if rest.isEmpty then .ok (.arrived (.free (name :: location))) else .error .notFound
          | some (.link target) =>
            if rest.isEmpty && !follow then .ok (.arrived (.taken (name :: location) (.link target)))
            else .ok (.link location target rest)
          | some _ => disk.advance follow (name :: location) rest

/-- Follows steps to the end, through at most `links` links. -/
def travel (disk : Disk) (follow : Bool) : (links : Nat) → Location → List Step → Except IoError Place
  | links, location, steps =>
    match disk.advance follow location steps with
    | .error e => .error e
    | .ok (.arrived place) => .ok place
    | .ok (.link directory target rest) =>
      match links with
      | 0 => .error .tooManyLinks
      | links + 1 => disk.travel follow links (target.origin directory) (target.steps ++ rest)

/-- The place that a path leads to. With `follow` a link at its end is followed too. -/
def locate (disk : Disk) (follow : Bool) (path : Path) : Except IoError Place :=
  match path.fault? with
  | some e => .error e
  | none => disk.travel follow linkLimit (path.origin disk.home) path.steps

/-- The place that a path names, whether or not there are slashes at its end. A link there is
    not followed. -/
def locateEntry (disk : Disk) (path : Path) : Except IoError Place :=
  match path.fault? with
  | some e => .error e
  | none => disk.travel false linkLimit (path.origin disk.home) path.withoutSlashes.steps

/-- The node that a path leads to and its location, links followed. -/
def status (disk : Disk) (path : Path) : Except IoError (Location × Node) := do
  match ← disk.locate true path with
  | .taken location node => return (location, node)
  | .free _ => throw .notFound

/-- The node that a path names and its location. A link at the end is a node of its own. -/
def linkStatus (disk : Disk) (path : Path) : Except IoError (Location × Node) := do
  match ← disk.locate false path with
  | .taken location node => return (location, node)
  | .free _ => throw .notFound

/-- The path leads to a node. -/
def isThere (disk : Disk) (path : Path) : Bool :=
  match disk.status path with
  | .ok _ => true
  | .error _ => false

/-- Whether the path leads to a node, if that can be told. -/
def isThere? (disk : Disk) (path : Path) : Except IoError Bool :=
  match disk.status path with
  | .ok _ => .ok true
  | .error .notFound => .ok false
  | .error e => .error e

/-- The path leads to a directory. -/
def leadsToDir (disk : Disk) (path : Path) : Bool :=
  match disk.status path with
  | .ok (_, .dir) => true
  | _ => false

end Disk

end PageLoom
