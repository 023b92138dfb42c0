import PageLoom.Config.Shape
import PageLoom.Disk.Files
import PageLoom.Json.Reader
import PageLoom.Toml.Document

namespace PageLoom

/-!
# Configurations on disk

* `ConfigFormat` — the two formats that a configuration may be written in;
* `SiteConfig.ofText` — the configuration that a text gives;
* `ConfigError`, `SiteConfig.load` — the configuration that a file gives.
-/

/-- The format of a configuration. -/
inductive ConfigFormat where
  | json
  | toml
  deriving DecidableEq, Repr

/-- A path with the extension `json`, in capital or small letters, names a JSON text. Any
    other one names a TOML text. -/
def ConfigFormat.ofPath (path : Path) : ConfigFormat :=
  if path.extension?.map (·.toLower) = some "json" then .json else .toml

/-- Why a configuration could not be loaded. -/
inductive ConfigError where
  | read (path : Path) (cause : IoError)
  | parse (path : Path) (format : ConfigFormat) (refusal : Refusal)
  deriving DecidableEq, Repr

/-- The text of a fault. -/
def Fault.message : Fault → String
  | .syntaxError => "the text is not well-formed"
  | .endOfText => "the text ends too early"

/-- The text of a refusal. -/
def Refusal.message : Refusal → String
  | .fault cause => cause.message
  | .shape cause => cause.message

/-- The text of what lies behind an error. -/
def ConfigError.cause : ConfigError → String
  | .read _ cause => cause.message
  | .parse _ _ refusal => refusal.message

/-- The text of an error. -/
def ConfigError.message : ConfigError → String
  | .read path cause => "Failed to read " ++ path.text ++ ": " ++ cause.message
  | .parse path _ refusal => "Failed to parse " ++ path.text ++ ": " ++ refusal.message

namespace SiteConfig

/-- The configuration that a text gives. What follows a JSON value is looked at only after the
    value has been given its meaning. -/
def ofText : ConfigFormat → String → Reading SiteConfig
  | .json, text => do
    let (datum, trailing) := Json.document text.toList
    let config ← ofDatum true datum
    checkFault trailing
    return config
  | .toml, text =>
    match Toml.document? text.toList with
    | some datum => ofDatum false datum
    | none => .error (.fault .syntaxError)

/-- The configuration in the file that a path leads to. -/
def load (disk : Disk) (path : Path) : Except ConfigError SiteConfig :=
  match disk.readText path with
  | .error cause => .error (.read path cause)
  | .ok text =>
    match ofText (.ofPath path) text with
    | .error refusal => .error (.parse path (.ofPath path) refusal)
    | .ok config => .ok config

end SiteConfig

end PageLoom
