import PageLoom.Disk.Path
import PageLoom.Layout.Part

namespace PageLoom

/-!
# Events

What happens while a site is set up or built is told in the log.

* `Event` — something worth telling;
* `Event.level`, `Event.text` — how much it matters, and how it is told.
-/

/-- How much an event matters. -/
inductive Level where
  | debug
  | info
  | warn
  deriving DecidableEq, Repr

/-- The name of a level. -/
def Level.name : Level → String
  | .debug => "DEBUG"
  | .info => "INFO"
  | .warn => "WARN"

/-- Something that happened while a site was set up or built. -/
inductive Event where
  | initializing
  | sourceExists
  | created (path : Path)
  | initialized
  | buildHint
  | building
  | loadedConfig (path : Path)
  | applying (count : Nat) (part : Part)
  | processingPages
  | processingPage (path : Path)
  | processingStylesheet
  | processingScripts
  | addingScript (path : Path)
  | processingAssets
  | noAssets (path : Path)
  | copied (relative : String)
  | built (pages scripts assets : Nat)
  | outputIn (path : Path)
  deriving DecidableEq, Repr

namespace Event

/-- How much an event matters. -/
def level : Event → Level
  | .sourceExists | .noAssets _ => .warn
  | .applying _ _ | .copied _ => .debug
  | _ => .info

/-- The text of an event. `elapsed` is the duration of the build in milliseconds. -/
def text (elapsed : Nat) : Event → String
  | .initializing => "Initializing stitch..."
  | .sourceExists => "src/ directory already exists. Use --yes to overwrite."
  | .created path => "Created " ++ path.text
  | .initialized => "Initialization complete!"
  | .buildHint => "Run 'stitch build' to build the site."
  | .building => "Building static site..."
  | .loadedConfig path => "Loaded config from " ++ path.text
  | .applying count part =>
    "Applying " ++ toString count ++ " replacements to " ++ part.name
  | .processingPages => "Processing html files"
  | .processingPage path => "Processing file: " ++ path.text
  | .processingStylesheet => "Processing css files"
  | .processingScripts => "Processing js files"
  | .addingScript path => "Concatenating file: " ++ path.text
  | .processingAssets => "Processing assets"
  | .noAssets path => "Assets directory not found: " ++ path.text
  | .copied relative => "Copied " ++ relative
  | .built pages scripts assets =>
    "Built " ++ toString pages ++ " pages, bundled " ++ toString scripts ++
      " scripts and copied " ++ toString assets ++ " assets in " ++ toString elapsed ++ "ms"
  | .outputIn path => "Output: " ++ path.text

/-- The line of an event in the log. -/
def line (elapsed : Nat) (event : Event) : String :=
  event.level.name ++ " " ++ event.text elapsed

/-- The event is told. Details are told only on request. -/
def isShown (verbose : Bool) (event : Event) : Bool :=
  verbose || event.level ≠ .debug

end Event

end PageLoom
