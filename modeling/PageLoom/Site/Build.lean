import PageLoom.Page.Source
import PageLoom.Site.Fragments

namespace PageLoom

/-!
# Building a site

A build makes the output directory, finds the pages, loads the layout parts, and then writes
the pages, the stylesheet, the scripts and the assets. It ends with the first failure; what
was written before stays.

* `Toolchain` — what a build relies on;
* `buildPage`, `buildStylesheet`, `bundleScripts`, `copyAssets` — the steps of a build;
* `buildSite` — the build, and `BuildResult`, what it made.
-/

/-- What a build relies on: the order of directories, how a stylesheet and a page in Markdown
    become what the site shows, how documents are laid out, and the time that they carry. -/
structure Toolchain where
  order : ListingOrder
  stylesheet : Disk → Path → Except String String
  markdown : String → String
  formatter : String → String
  stamp : String

/-- What a build made. -/
structure BuildResult where
  pages : Nat
  scripts : Nat
  assets : Nat
  output : Path
  deriving DecidableEq, Repr

/-- Finds the pages of a site. -/
def findPages (tools : Toolchain) (layout : SiteLayout) : Action BuildError (List PageSource) := do
  let paths ← Action.look (.scan .pages) (·.scan tools.order layout.pagesDir pageFilter)
  return paths.map (PageSource.of · layout.output)

/-- The content of a page as markup. -/
def pageContent (tools : Toolchain) (kind : PageKind) (text : String) : String :=
  match kind with
  | .markdown => tools.markdown text
  | .markup | .plain => text

/-- The finished document of a page with the given text. -/
def pageText (tools : Toolchain) (config : SiteConfig) (fragments : Fragments)
    (page : PageSource) (text : String) : String :=
  let document : Document :=
    { lang := config.lang
      fragments
      key := page.key
      content := pageContent tools page.kind text
      hasSidebar := config.hasSidebar page.key
      stamp := tools.stamp }
  tools.formatter document.text

/-- Writes the document of a page. -/
def buildPage (tools : Toolchain) (config : SiteConfig) (fragments : Fragments)
    (page : PageSource) : Action BuildError Unit := do
  Action.tell (.processingPage page.path)
  let text ← Action.look (.read .pages page.path) (·.readText page.path)
  Action.writeFile (.write page.outputPath) page.outputPath
    (pageText tools config fragments page text)

/-- Writes the stylesheet. -/
def buildStylesheet (tools : Toolchain) (layout : SiteLayout) : Action BuildError Unit := do
  let text ← Action.look (.stylesheet layout.stylesheet) (tools.stylesheet · layout.stylesheet)
  Action.writeFile (.write layout.outputStylesheet) layout.outputStylesheet text

/-- The piece of the bundle that comes from one script. -/
def scriptChunk (path : Path) (text : String) : String :=
  "// " ++ path.text ++ "\n\n" ++ text ++ "\n\n"

/-- Reads one script for the bundle. -/
def loadScript (path : Path) : Action BuildError String := do
  Action.tell (.addingScript path)
  let text ← Action.look (.read .scripts path) (·.readText path)
  return scriptChunk path text

/-- The files that are scripts. -/
def scriptFilter : ExtensionFilter :=
  .oneOf ["js"]

/-- Writes all scripts into one file, and counts them. -/
def bundleScripts (tools : Toolchain) (layout : SiteLayout) : Action BuildError Nat := do
  let paths ← Action.look (.scan .scripts) (·.scan tools.order layout.scriptsDir scriptFilter)
  let chunks ← paths.mapM loadScript
  Action.writeFile (.write layout.outputBundle) layout.outputBundle (String.join chunks)
  return paths.length

/-- Copies the assets, if there are any, and counts them. -/
def copyAssets (tools : Toolchain) (layout : SiteLayout) : Action BuildError Nat := do
  let assets := layout.assetsDir
  if ← Action.look (fun cause => .copy assets (.write cause)) (·.isThere? assets) then
    EStateM.adaptExcept (.copy assets) (copyTree tools.order assets layout.outputAssets)
  else
    Action.tell (.noAssets assets)
    return 0

/-- Builds a site. -/
def buildSite (tools : Toolchain) (config : SiteConfig) : Action BuildError BuildResult := do
  let layout := config.layout
  Action.makeDirs (.write layout.output) layout.output
  let pages ← findPages tools layout
  let fragments ← loadFragments config
  Action.tell .processingPages
  pages.forM (buildPage tools config fragments)
  Action.tell .processingStylesheet
  buildStylesheet tools layout
  Action.tell .processingScripts
  let scripts ← bundleScripts tools layout
  Action.tell .processingAssets
  let assets ← copyAssets tools layout
  return { pages := pages.length, scripts, assets, output := layout.output }

end PageLoom
