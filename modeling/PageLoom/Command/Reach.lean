import PageLoom.Command.Arguments

namespace PageLoom

/-!
# Where a call works

A call works at few places of a disk, and no other part of the disk has to be known for it.

* `CommandCall.roots` — the trees that a call works in.
-/

/-- The trees that a build works in: those of its sources, its output and its stylesheet. -/
def SiteLayout.roots (layout : SiteLayout) : List Path :=
  [layout.source, layout.output, (layout.stylesheet.parent?).getD layout.stylesheet]

/-- The trees that a call works in. Those of a build are named by its configuration, which
    must be on the disk. -/
def CommandCall.roots (disk : Disk) (configPath : Path) : CommandCall → List Path
  | .init _ => [⟨"src"⟩]
  | .build overrides =>
    match SiteConfig.load disk configPath with
    | .ok config => (config.override overrides).layout.roots
    | .error _ => []

end PageLoom
