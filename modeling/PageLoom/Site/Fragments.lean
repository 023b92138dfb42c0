import PageLoom.Config.Basic
import PageLoom.Page.Document
import PageLoom.Site.Error

namespace PageLoom

/-!
# Loading the layout parts

* `loadPart` — one part, with its directives applied;
* `loadFragments` — all parts, in the order of `Part.all`.
-/

/-- Reads the file of a part and applies the part's directives. The scripts, which have none,
    are taken as they are. -/
def loadPart (config : SiteConfig) (part : Part) : Action BuildError String := do
  let path := config.layout.partFile part
  let text ← Action.look (.read .fragments path) (·.readText path)
  match config.directives? part with
  | none => return text
  | some directives =>
    Action.tell (.applying directives.length part)
    match applyDirectives text directives with
    | .ok result => return result
    | .error e => throw (.pattern part e)

/-- Loads all parts. The first one that fails ends the loading. -/
def loadFragments (config : SiteConfig) : Action BuildError Fragments := do
  let head ← loadPart config .head
  let header ← loadPart config .header
  let sidebar ← loadPart config .sidebar
  let footer ← loadPart config .footer
  let script ← loadPart config .script
  return { head, header, sidebar, footer, script }

end PageLoom
