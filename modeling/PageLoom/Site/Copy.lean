import PageLoom.Disk.Listing
import PageLoom.Site.Session

namespace PageLoom

/-!
# Copying a tree

A tree is copied into a directory that may hold files already. Links are followed, so the copy
holds none.

* `CopyError` — why a copy failed;
* `copyTree` — the copy of a tree, which counts the files.
-/

/-- Why a copy failed: something could not be read, a link leads back to a directory that it
    stands in, or something could not be written. -/
inductive CopyError where
  | walk (path : Path) (cause : IoError)
  | loop (path ancestor : Path)
  | write (cause : IoError)
  deriving DecidableEq, Repr

namespace CopyError

/-- The text of an error. -/
def message : CopyError → String
  | .walk path cause => "IO error for operation on " ++ path.text ++ ": " ++ cause.message
  | .loop path ancestor =>
    "File system loop found: " ++ path.text ++ " points to an ancestor " ++ ancestor.text
  | .write cause => cause.message

/-- The texts of what lies behind a failure to copy, the nearest one first. -/
def causes (error : CopyError) : List String :=
  match error with
  | .walk _ cause => [error.message, cause.message]
  | .loop _ _ | .write _ => [error.message]

end CopyError

/-- A directory that is being copied: where it is and how it was reached. -/
structure Ancestor where
  location : Location
  path : Path

/-- The node that stands for an entry, with its location. A link is followed, unless it leads
    back to a directory that is being copied. -/
def followEntry (above : List Ancestor) (path : Path) (disk : Disk) :
    Except CopyError (Location × Node) :=
  match disk.linkStatus path with
  | .error cause => .error (.walk path cause)
  | .ok (_, .link _) =>
    match disk.status path with
    | .error cause => .error (.walk path cause)
    | .ok (location, .dir) =>
      match above.find? (·.location = location) with
      | some ancestor => .error (.loop path ancestor.path)
      | none => .ok (location, .dir)
    | .ok found => .ok found
  | .ok found => .ok found

/-- Copies one file, and makes the directories that lead to the copy. -/
def copyOne (path target : Path) (relative : String) : Action CopyError Unit := do
  if let some parent := target.parent? then
    Action.makeDirs .write parent
  Action.change .write (·.copyFile path target)
  Action.tell (.copied relative)

/-- The way from the root of a copy to an entry of the directory at `relative`. -/
def entryBelow (relative name : String) : String :=
  if relative.isEmpty then name else relative ++ "/" ++ name

/-- Copies what stands at `path`, which is `relative` to the root of the copy, at most `depth`
    levels deep. The nearest directory is the first one in `above`. A directory is read after
    its copy was made. -/
def copyWithin (order : ListingOrder) (target : Path) :
    (depth : Nat) → (above : List Ancestor) → (path : Path) → (relative : String) →
      Action CopyError Nat
  | 0, _, path, _ => throw (.walk path .nameTooLong)
  | depth + 1, above, path, relative => do
    match ← Action.look id (followEntry above path) with
    | (location, .dir) =>
      Action.makeDirs .write (target.join relative)
      let entries ← Action.look (.walk path) (·.list path)
      let counts ← (order.arrange path entries).mapM fun entry =>
        copyWithin order target depth (⟨location, path⟩ :: above) (path.join entry.1)
          (entryBelow relative entry.1)
      return counts.foldr (· + ·) 0
    | _ =>
      copyOne path (target.join relative) relative
      return 1

/-- Copies a tree into a directory and counts the copied files. -/
def copyTree (order : ListingOrder) (source target : Path) : Action CopyError Nat :=
  copyWithin order target (pathLimit + 1) [] source ""

end PageLoom
