import PageLoom.Disk.Path
import PageLoom.Page.FileName

namespace PageLoom

/-!
# Page sources

* `PageKind` — how the content of a page becomes markup;
* `PageSource` — a page to be built, with its key and the path of its result;
* `pageFilter` — the files that are pages.
-/

/-- How the content of a page becomes markup. Markup and plain text are taken as they are. -/
inductive PageKind where
  | markup
  | markdown
  | plain
  deriving DecidableEq, Repr

/-- The kind of a page, by the extension of its file. -/
def PageKind.ofExtension : Option String → PageKind
  | some "md" => .markdown
  | some "txt" => .plain
  | _ => .markup

/-- The files that are pages. -/
def pageFilter : ExtensionFilter :=
  .oneOf ["html", "md", "txt"]

/-- A page to be built. -/
structure PageSource where
  path : Path
  key : String
  kind : PageKind
  outputPath : Path
  deriving DecidableEq, Repr

/-- The page in the file at `path`. Its result stands right in the output directory, under
    the key with the extension `html`. -/
def PageSource.of (path output : Path) : PageSource :=
  let name := path.fileName?.getD ""
  let key := keyOf name
  { path
    key
    kind := .ofExtension (extensionOf? name)
    outputPath := output.join (key ++ ".html") }

end PageLoom
