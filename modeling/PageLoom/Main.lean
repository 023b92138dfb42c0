import PageLoom.Command.Program
import PageLoom.Command.Reach
import PageLoom.Site.Standard
import Std.Time.Format

namespace PageLoom

/-!
# The command line

The program reads the trees that a call works in into a disk, runs the call on that disk, and
writes what the call changed.

* `Snapshot.load` — reads a tree;
* `saveChanges` — writes what changed;
* `runCommandLine`, `main` — the program.
-/

/-- What has been read so far: the disk, and the locations whose trees are on it. -/
structure Snapshot where
  disk : Disk
  trees : List Location

namespace Snapshot

/-- The path of a location. -/
def pathOf (location : Location) : String :=
  "/" ++ "/".intercalate location.reverse

/-- The location of a path from the root without links in it. -/
def locationOf (path : String) : Location :=
  (path.splitOn "/").reverse.filter (· ≠ "")

/-- The snapshot with a node. -/
def put (snapshot : Snapshot) (location : Location) (node : Node) : Snapshot :=
  { snapshot with disk := snapshot.disk.put location node }

/-- The snapshot with the directories that lead to a location. -/
def putAncestors (snapshot : Snapshot) : Location → Snapshot
  | [] => snapshot
  | _ :: up => if up = [] then snapshot else (snapshot.putAncestors up).put up .dir

/-- What stands at a location, if anything does. -/
def fileType? (location : Location) : IO (Option IO.FS.FileType) := do
  try return some (← (System.mkFilePath [pathOf location]).symlinkMetadata).type
  catch _ => return none

/-- The location that a link leads to, if it leads anywhere. -/
def linkTarget? (location : Location) : IO (Option Location) := do
  try return some (locationOf (← IO.FS.realPath (pathOf location)).toString)
  catch _ => return none

/-- Reads the node at a location, with all that is below it and all that its links lead to. What
    cannot be read is left out, and a link that leads nowhere is taken to lead to a missing
    neighbour. -/
partial def load (snapshot : Snapshot) (location : Location) : IO Snapshot := do
  if snapshot.trees.contains location then return snapshot
  let here := System.mkFilePath [pathOf location]
  try
    match ← fileType? location with
    | none => return snapshot
    | some .symlink =>
      match ← linkTarget? location with
      | some target =>
        let snapshot := (snapshot.put location (.link ⟨pathOf target⟩)).putAncestors target
        load snapshot target
      | none => return snapshot.put location (.link ⟨pathOf location ++ ".missing"⟩)
    | some .dir =>
      let snapshot := if location = [] then snapshot else snapshot.put location .dir
      let entries ← here.readDir
      entries.foldlM (fun snapshot entry => load snapshot (entry.fileName :: location))
        { snapshot with trees := location :: snapshot.trees }
    | _ => return snapshot.put location (.file (← IO.FS.readBinFile here))
  catch _ => return snapshot

/-- Reads what the rest of a path leads to from a location, following the links on the way. -/
def loadSteps (snapshot : Snapshot) (location : Location) : List Step → IO Snapshot
  | [] => snapshot.load location
  | .stay :: rest => snapshot.loadSteps location rest
  | .up :: rest => snapshot.loadSteps (location.drop 1) rest
  | .down name :: rest => do
    let next := name :: location
    match ← fileType? next with
    | some .symlink =>
      let snapshot ← snapshot.load next
      match ← linkTarget? next with
      | some target => snapshot.loadSteps target rest
      | none => return snapshot
    | some .dir => (snapshot.put next .dir).loadSteps next rest
    | _ => snapshot.load next

/-- Reads what a path leads to. -/
def loadPath (snapshot : Snapshot) (path : Path) : IO Snapshot :=
  snapshot.loadSteps (if path.isAbsolute then [] else snapshot.disk.home) path.steps

end Snapshot

/-- Reads all that a call works with. -/
def snapshotFor (invocation : Invocation) : IO Disk := do
  let home := Snapshot.locationOf (← IO.FS.realPath ".").toString
  let start : Snapshot := ⟨{ Disk.empty with home }, []⟩
  match invocation with
  | .run call configPath _ =>
    let snapshot ← (start.putAncestors ("." :: home)).loadPath configPath
    let snapshot ← (call.roots snapshot.disk configPath).foldlM (·.loadPath ·) snapshot
    return snapshot.disk
  | _ => return start.disk

/-- Writes the files and directories that are new or changed. -/
def saveChanges (before after : Disk) : IO Unit := do
  let changed := after.nodes.filter fun (location, node) => before.node? location ≠ some node
  let inner (left right : Location × Node) : Bool := left.1.length ≤ right.1.length
  for (location, node) in changed.mergeSort inner do
    match node with
    | .file bytes => IO.FS.writeBinFile (Snapshot.pathOf location) bytes
    | .dir => IO.FS.createDirAll (Snapshot.pathOf location)
    | .link _ => pure ()

/-- Runs the program, tells its log with the time, and gives its exit code. -/
def runCommandLine (args : List String) : IO UInt32 := do
  let started ← IO.monoMsNow
  let now ← Std.Time.PlainDateTime.now
  let stamp := now.format "EEE MMM dd uuuu HH:mm:ss" ++ " GMT+0000"
  let disk ← snapshotFor (readArguments args)
  let outcome := runProgram (.standard .stored stamp) disk args
  saveChanges disk outcome.disk
  let elapsed := (← IO.monoMsNow) - started
  let time := now.format "uuuu-MM-dd'T'HH:mm:ss.SSSSSS" ++ "Z "
  IO.print outcome.printed
  for event in outcome.events do
    let gap := "".pushn ' ' (5 - event.level.name.length)
    IO.println (time ++ gap ++ event.line elapsed)
  IO.eprint outcome.report
  return UInt32.ofNat outcome.exitCode

end PageLoom

/-- The program. -/
def main (args : List String) : IO UInt32 :=
  PageLoom.runCommandLine args
