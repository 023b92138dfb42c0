import PageLoom.Disk.Path
import PageLoom.Layout.Directive
import PageLoom.Layout.Part

namespace PageLoom

/-!
# Site configurations

* `SiteConfig` — everything that can be set for a site;
* `SiteConfig.hasSidebar`, `SiteConfig.directives?` — what it says of a page and of a part;
* `SiteLayout`, `SiteConfig.layout` — where the pieces of the site stand.
-/

/-- Where a site is read from and written to, and how. -/
structure BuildSettings where
  source : Path
  output : Path
  stylesheet : Path
  minify : Bool
  pretty : Bool
  deriving DecidableEq, Repr

/-- The settings that hold where none are given. -/
def BuildSettings.default : BuildSettings :=
  ⟨⟨"src"⟩, ⟨"dest"⟩, ⟨"style/style.css"⟩, false, true⟩

/-- The settings of one page: whether it has a sidebar, if that is said. -/
structure PageSettings where
  sidebar : Option Bool
  deriving DecidableEq, Repr

/-- The configuration of a site: its language, settings by page key, the directives of its
    parts, and where it is built. -/
structure SiteConfig where
  lang : String
  pages : List (String × PageSettings)
  head : List Directive
  header : List Directive
  sidebar : List Directive
  footer : List Directive
  build : BuildSettings
  deriving DecidableEq, Repr

/-- Where the pieces of a site stand. -/
structure SiteLayout where
  source : Path
  output : Path
  stylesheet : Path
  deriving DecidableEq, Repr

namespace SiteConfig

/-- The configuration with nothing but defaults, which lacks a language. -/
def blank : SiteConfig :=
  ⟨"", [], [], [], [], [], .default⟩

/-- The page has a sidebar unless its settings say that it has none. -/
def hasSidebar (config : SiteConfig) (key : String) : Bool :=
  ((config.pages.lookup key).bind (·.sidebar)) != some false

/-- The directives of a part. The scripts have none. -/
def directives? (config : SiteConfig) : Part → Option (List Directive)
  | .head => some config.head
  | .header => some config.header
  | .sidebar => some config.sidebar
  | .footer => some config.footer
  | .script => none

/-- Where the pieces of the site stand. The stylesheet is found from the source. -/
def layout (config : SiteConfig) : SiteLayout :=
  ⟨config.build.source, config.build.output, config.build.source.join config.build.stylesheet.text⟩

end SiteConfig

namespace SiteLayout

/-- The directory with the pages. -/
def pagesDir (layout : SiteLayout) : Path :=
  layout.source.join "pages"

/-- The file of a part. -/
def partFile (layout : SiteLayout) (part : Part) : Path :=
  ((layout.source.join "parts").join part.name).join (part.name ++ ".html")

/-- The directory with the scripts. -/
def scriptsDir (layout : SiteLayout) : Path :=
  (layout.source.join "parts").join Part.script.name

/-- The directory with the assets. -/
def assetsDir (layout : SiteLayout) : Path :=
  layout.source.join "assets"

/-- The file of the finished stylesheet. -/
def outputStylesheet (layout : SiteLayout) : Path :=
  layout.output.join "style.css"

/-- The file of all scripts in one. -/
def outputBundle (layout : SiteLayout) : Path :=
  layout.output.join "bundle.js"

/-- The directory of the copied assets. -/
def outputAssets (layout : SiteLayout) : Path :=
  layout.output.join "assets"

end SiteLayout

end PageLoom
