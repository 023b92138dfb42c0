import PageLoom.Site.Copy
import PageLoom.Splice.Placeholder

namespace PageLoom

/-!
# Failures of a build

* `Stage` — the part of a build that reads files;
* `BuildError` — why a build failed;
* `BuildError.message`, `BuildError.causes` — how that is told.
-/

/-- A part of a build that reads files. -/
inductive Stage where
  | pages
  | fragments
  | scripts
  deriving DecidableEq, Repr

/-- The name of a stage. -/
def Stage.name : Stage → String
  | .pages => "pages"
  | .fragments => "fragments"
  | .scripts => "scripts"

/-- Why a build failed. -/
inductive BuildError where
  | scan (stage : Stage) (error : ScanError)
  | read (stage : Stage) (path : Path) (cause : IoError)
  | write (path : Path) (cause : IoError)
  | pattern (part : Part) (error : SymbolError)
  | stylesheet (path : Path) (reason : String)
  | copy (path : Path) (error : CopyError)
  deriving DecidableEq, Repr

namespace BuildError

/-- The text of an error. -/
def message : BuildError → String
  | .scan stage error => "Failed to scan " ++ stage.name ++ ": " ++ error.message
  | .read stage path cause =>
    "Failed to read " ++ path.text ++ " (" ++ stage.name ++ "): " ++ cause.message
  | .write path cause => "Failed to write output " ++ path.text ++ ": " ++ cause.message
  | .pattern part error =>
    "Invalid placeholder symbol in " ++ part.name ++ " replacements: " ++ error.message
  | .stylesheet path reason => "Failed to compile stylesheet " ++ path.text ++ ": " ++ reason
  | .copy path error => "Failed to copy assets from " ++ path.text ++ ": " ++ error.message

/-- The texts of what lies behind a failed build, the nearest one first. -/
def causes : BuildError → List String
  | .scan _ error => [error.message, error.cause.message]
  | .read _ _ cause | .write _ cause => [cause.message]
  | .pattern _ _ | .stylesheet _ _ => []
  | .copy _ error => error.causes

end BuildError

end PageLoom
