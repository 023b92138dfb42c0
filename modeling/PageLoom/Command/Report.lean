import PageLoom.Config.Load
import PageLoom.Site.Error

namespace PageLoom

/-!
# Failures of commands

* `CommandError` — why a command failed;
* `CommandError.message`, `CommandError.causes` — what happened, and what lies behind it;
* `CommandError.chain`, `CommandError.report` — both on one line and on several lines.
-/

/-- Why a command failed. -/
inductive CommandError where
  | noConfig (path : Path)
  | config (error : ConfigError)
  | build (error : BuildError)
  | makeDirs (path : Path) (cause : IoError)
  | write (path : Path) (cause : IoError)
  deriving DecidableEq, Repr

namespace CommandError

/-- What happened. -/
def message : CommandError → String
  | .noConfig path =>
    "Config file not found: " ++ path.text ++ ". Run 'stitch init' first."
  | .config error => error.message
  | .build _ => "Build failed"
  | .makeDirs path _ => "Failed to create " ++ path.text
  | .write path _ => "Failed to write " ++ path.text

/-- What lies behind a failure, the nearest cause first. -/
def causes : CommandError → List String
  | .noConfig _ => []
  | .config error => [error.cause]
  | .build error => error.message :: error.causes
  | .makeDirs _ cause | .write _ cause => [cause.message]

/-- What happened and what lies behind it, on one line. -/
def chain (error : CommandError) : String :=
  ": ".intercalate (error.message :: error.causes)

/-- A text whose further lines are set in like its first one. -/
private def setIn (first further text : String) : String :=
  first ++ ("\n" ++ further).intercalate (text.splitOn "\n")

/-- A cause with its number, which takes five columns. -/
private def numbered (cause : String × Nat) : String :=
  let number := toString cause.2
  setIn (String.ofList (List.replicate (5 - number.length) ' ') ++ number ++ ": ") "       " cause.1

/-- What happened, followed by the causes, which are numbered if there are several. -/
def report (error : CommandError) : String :=
  let causes := match error.causes with
    | [] => []
    | [cause] => [setIn "    " "    " cause]
    | causes => causes.zipIdx.map numbered
  let behind := if causes.isEmpty then "" else "\n\nCaused by:\n" ++ "\n".intercalate causes
  "Error: " ++ error.message ++ behind ++ "\n"

end CommandError

end PageLoom
