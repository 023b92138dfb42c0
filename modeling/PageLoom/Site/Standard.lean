import PageLoom.Config.Basic
import PageLoom.Indent.Format
import PageLoom.Markdown.Render
import PageLoom.Site.Build
import PageLoom.Style.Bundle

namespace PageLoom

/-!
# The standard tools

* `Toolchain.standard` — the tools of a build as its settings ask for them.
-/

/-- Bundled stylesheets, Markdown, and, where the settings ask for it, documents indented by
    two blanks a level. -/
def Toolchain.standard (order : ListingOrder) (stamp : String) (settings : BuildSettings) :
    Toolchain where
  order := order
  stylesheet disk entry :=
    (Style.compileStylesheet settings.minify disk entry).mapError (·.message)
  markdown := Markdown.toHtml
  formatter text :=
    if settings.pretty then String.ofList (indent 2 text.toList) else text
  stamp := stamp

end PageLoom
