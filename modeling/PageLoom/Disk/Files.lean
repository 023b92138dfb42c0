import PageLoom.Disk.Resolve

namespace PageLoom

/-!
# Reading and writing files and directories

* `Disk.readBytes`, `Disk.readText`, `Disk.list` — what a path holds;
* `Disk.write`, `Disk.copyFile`, `Disk.makeDir`, `Disk.makeLink`, `Disk.remove` — changes that
  are made wholly or not at all;
* `Disk.makeDirs` — a directory with all that lead to it; on failure those made before stay.
-/

namespace Disk

/-- The bytes of the file that a path leads to. -/
def readBytes (disk : Disk) (path : Path) : Except IoError ByteArray := do
  match ← disk.status path with
  | (_, .file bytes) => return bytes
  | _ => throw .isDirectory

/-- The text of the file that a path leads to. -/
def readText (disk : Disk) (path : Path) : Except IoError String := do
  match String.fromUTF8? (← disk.readBytes path) with
  | some text => return text
  | none => throw .notUtf8

/-- The names and nodes in the directory that a path leads to. -/
def list (disk : Disk) (path : Path) : Except IoError (List (String × Node)) := do
  match ← disk.status path with
  | (location, .dir) => return disk.children location
  | _ => throw .notDirectory

/-- The disk after writing a file, in place of the one that was there. A link at the end is
    followed, also to a file that does not exist yet. -/
def write (disk : Disk) (path : Path) (bytes : ByteArray) : Except IoError Disk := do
  if path.endsInSlash then
    let _ ← disk.locateEntry path
    throw .isDirectory
  match ← disk.locate true path with
  | .free location => return disk.put location (.file bytes)
  | .taken location (.file _) => return disk.put location (.file bytes)
  | .taken _ _ => throw .isDirectory

/-- The disk after copying a file. The target is emptied before the source is read, so a file
    copied onto itself is lost. -/
def copyFile (disk : Disk) (source target : Path) : Except IoError Disk := do
  let (location, _) ← disk.status source
  let emptied ← disk.write target .empty
  match emptied.node? location with
  | some (.file bytes) => emptied.write target bytes
  | _ => throw .isDirectory

/-- The disk with a new directory. -/
def makeDir (disk : Disk) (path : Path) : Except IoError Disk := do
  match ← disk.locateEntry path with
  | .free location => return disk.put location .dir
  | .taken _ _ => throw .alreadyExists

/-- The disk with a new link. -/
def makeLink (disk : Disk) (path target : Path) : Except IoError Disk := do
  match ← disk.locate false path with
  | .free location => return disk.put location (.link target)
  | .taken _ _ => throw .alreadyExists

/-- The disk without the node that a path names and all below it. -/
def remove (disk : Disk) (path : Path) : Except IoError Disk := do
  let (location, _) ← disk.linkStatus path
  return disk.erase location

/-- A directory at the path, which may be there already. -/
def ensureDir (disk : Disk) (path : Path) : Except IoError Unit × Disk :=
  match disk.makeDir path with
  | .ok changed => (.ok (), changed)
  | .error e => (if disk.leadsToDir path then .ok () else .error e, disk)

/-- A directory at the path and at those of its parents that are missing, up to `height`
    parents. -/
def makeDirsUpTo (disk : Disk) : (height : Nat) → Path → Except IoError Unit × Disk
  | height, path =>
    if path.text.isEmpty then (.ok (), disk)
    else
      match disk.makeDir path with
      | .error .notFound =>
        match height, path.parent? with
        | height + 1, some parent =>
          match disk.makeDirsUpTo height parent with
          | (.ok (), changed) => changed.ensureDir path
          | failed => failed
        | _, _ => (.error .notFound, disk)
      | _ => disk.ensureDir path

/-- A directory at the path and at those of its parents that are missing. What was made before
    a failure stays. -/
def makeDirs (disk : Disk) (path : Path) : Except IoError Unit × Disk :=
  disk.makeDirsUpTo path.text.length path

end Disk

end PageLoom
