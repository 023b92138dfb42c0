import PageLoom.Disk.Files
import PageLoom.Page.FileName

namespace PageLoom

/-!
# Listing and scanning directories

A directory has no order of its own. Whoever reads one gets its entries in a listing order,
and all that is read off directories takes that order as an argument.

* `ListingOrder` — a way to put the entries of directories into an order;
* `ListingOrder.stored`, `ListingOrder.byName` — two such ways;
* `Disk.scan` — all files below a directory that a filter chooses.
-/

/-- A way to put the entries of a directory, which has a path, into an order. -/
structure ListingOrder where
  arrange : Path → List (String × Node) → List (String × Node)
  perm : ∀ path entries, (arrange path entries).Perm entries

namespace ListingOrder

/-- Entries in the order in which the disk holds them. -/
def stored : ListingOrder :=
  ⟨fun _ entries => entries, fun _ entries => .refl entries⟩

/-- Entries sorted by name. The name of a directory is taken with a slash at its end, so that
    paths read one after the other are sorted too. -/
def byName : ListingOrder :=
  ⟨fun _ entries => entries.mergeSort fun left right => sortKey left ≤ sortKey right,
    fun _ entries => entries.mergeSort_perm _⟩
where
  /-- The text by which an entry is sorted. -/
  sortKey (entry : String × Node) : String :=
    if entry.2 = .dir then entry.1 ++ "/" else entry.1

end ListingOrder

/-- Why a scan failed: a directory could not be read. -/
structure ScanError where
  path : Path
  cause : IoError
  deriving DecidableEq, Repr

/-- The text of an error. -/
def ScanError.message (error : ScanError) : String :=
  "Failed to read directory " ++ error.path.text ++ ": " ++ error.cause.message

namespace Disk

/-- The chosen files below a directory, at most `depth` levels deep. -/
def scanWithin (disk : Disk) (order : ListingOrder) (filter : ExtensionFilter) :
    (depth : Nat) → Path → Except ScanError (List Path)
  | 0, root => .error ⟨root, .nameTooLong⟩
  | depth + 1, root =>
    match disk.list root with
    | .error cause => .error ⟨root, cause⟩
    | .ok entries => do
      let found ← (order.arrange root entries).mapM fun
        | (name, .dir) => disk.scanWithin order filter depth (root.join name)
        | (name, _) => .ok (if filter.accepts (extensionOf? name) then [root.join name] else [])
      return found.flatten

/-- All files below a directory that the filter chooses, each directory's files together. A
    link is a file with its own name. Every level makes the path longer, so a directory
    `pathLimit` levels down cannot be read. -/
def scan (disk : Disk) (order : ListingOrder) (root : Path) (filter : ExtensionFilter) :
    Except ScanError (List Path) :=
  disk.scanWithin order filter pathLimit root

end Disk

end PageLoom
