import PageLoom.Command.Report
import PageLoom.Site.Build
import PageLoom.Site.Scaffold

namespace PageLoom

/-!
# The commands

* `runInit` — sets up a new site;
* `runBuild` — builds a site from its configuration.
-/

/-- Writes one file of a new site. A file that is there already is kept unless `overwrite` is
    set. -/
def createFile (overwrite : Bool) (path : Path) (text : String) : Action CommandError Unit := do
  if (← get).disk.isThere path && !overwrite then return ()
  if let some parent := path.parent? then
    Action.makeDirs (.makeDirs parent) parent
  Action.change (.write path) (·.write path text.toUTF8)
  Action.tell (.created path)

/-- Writes the configuration and the source tree of a new site. Where there is a source tree
    already nothing is written, unless `overwrite` is set. -/
def createSite (configPath : Path) (overwrite : Bool) : Action CommandError Unit := do
  let root : Path := ⟨"."⟩
  let source := root.join "src"
  if (← get).disk.isThere source && !overwrite then
    Action.tell .sourceExists
  else
    createFile overwrite (root.join configPath.text) (Scaffold.config (.ofPath configPath))
    Scaffold.files.forM fun file => createFile overwrite (source.join file.1) file.2

/-- Sets up a new site in the disk's home. -/
def runInit (configPath : Path) (overwrite : Bool) : Action CommandError Unit := do
  Action.tell .initializing
  createSite configPath overwrite
  Action.tell .initialized
  Action.tell .buildHint

/-- What the command line says about a build, over what the configuration says. -/
structure BuildOverrides where
  output : Option Path
  minify : Bool
  deriving DecidableEq, Repr

/-- The configuration with what the command line says in the place of its own settings. -/
def SiteConfig.override (config : SiteConfig) (overrides : BuildOverrides) : SiteConfig :=
  { config with
    build := { config.build with
      output := overrides.output.getD config.build.output
      minify := config.build.minify || overrides.minify } }

/-- Loads the configuration for a build. -/
def loadForBuild (configPath : Path) : Action CommandError SiteConfig := do
  if !(← get).disk.isThere configPath then throw (.noConfig configPath)
  let config ← Action.look .config (SiteConfig.load · configPath)
  Action.tell (.loadedConfig configPath)
  return config

/-- Builds a site from its configuration, with the tools that its settings ask for. -/
def runBuild (tools : BuildSettings → Toolchain) (configPath : Path)
    (overrides : BuildOverrides) : Action CommandError Unit := do
  Action.tell .building
  let config := (← loadForBuild configPath).override overrides
  let result ← EStateM.adaptExcept .build (buildSite (tools config.build) config)
  Action.tell (.built result.pages result.scripts result.assets)
  Action.tell (.outputIn result.output)

end PageLoom
