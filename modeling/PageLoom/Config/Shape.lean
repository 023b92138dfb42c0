import PageLoom.Config.Basic
import PageLoom.Data.Shape

namespace PageLoom

/-!
# The shape of a configuration

* `SiteConfig.shape` — the shape of a configuration and of its records;
* `SiteConfig.ofDatum` — a configuration read from a tree.
-/

namespace Directive

/-- The shape of a directive. -/
def shape : RecordShape Directive where
  name := "struct Replacement"
  fields :=
    [⟨"symbol", true, fun d r => do return { r with symbol := ← readText "a string" d }⟩,
     ⟨"value", true, fun d r => do return { r with value := ← readText "a string" d }⟩]

end Directive

namespace PageSettings

/-- The shape of the settings of a page. -/
def shape : RecordShape PageSettings where
  name := "struct PageSettings"
  fields := [⟨"sidebar", false, fun d _ => do return ⟨← readOptionalBool d⟩⟩]

end PageSettings

namespace BuildSettings

/-- Reads a path. -/
private def readPath (datum : Datum) : Reading Path :=
  Path.mk <$> readText "path string" datum

/-- The shape of the settings of the build. -/
def shape : RecordShape BuildSettings where
  name := "struct BuildSettings"
  fields :=
    [⟨"source", false, fun d r => do return { r with source := ← readPath d }⟩,
     ⟨"output", false, fun d r => do return { r with output := ← readPath d }⟩,
     ⟨"stylesheet", false, fun d r => do return { r with stylesheet := ← readPath d }⟩,
     ⟨"minify", false, fun d r => do return { r with minify := ← readBool d }⟩,
     ⟨"pretty", false, fun d r => do return { r with pretty := ← readBool d }⟩]

end BuildSettings

namespace SiteConfig

/-- The shape of the general settings, which are the language. -/
def generalShape : RecordShape String where
  name := "struct General"
  fields := [⟨"lang", true, fun d _ => readText "a string" d⟩]

/-- The shape of the settings of a part, which are its directives. -/
def partShape (exact : Bool) : RecordShape (List Directive) where
  name := "struct FragmentSettings"
  fields := [⟨"replacements", false, fun d _ => readList (Directive.shape.read exact ⟨"", ""⟩) d⟩]

/-- The shape of a configuration. -/
def shape (exact : Bool) : RecordShape SiteConfig where
  name := "struct SiteConfig"
  fields :=
    [⟨"general", true, fun d r => do return { r with lang := ← generalShape.read exact "" d }⟩,
     ⟨"pages", false, fun d r => do
        return { r with pages := ← readMap (PageSettings.shape.read exact ⟨none⟩) d }⟩,
     ⟨"head", false, fun d r => do return { r with head := ← (partShape exact).read exact [] d }⟩,
     ⟨"header", false, fun d r => do
        return { r with header := ← (partShape exact).read exact [] d }⟩,
     ⟨"sidebar", false, fun d r => do
        return { r with sidebar := ← (partShape exact).read exact [] d }⟩,
     ⟨"footer", false, fun d r => do
        return { r with footer := ← (partShape exact).read exact [] d }⟩,
     ⟨"build", false, fun d r => do
        return { r with build := ← BuildSettings.shape.read exact .default d }⟩]

/-- Reads a configuration from a tree. With `exact` lists that stand for records must not be
    too long. -/
def ofDatum (exact : Bool) (datum : Datum) : Reading SiteConfig :=
  (shape exact).read exact .blank datum

end SiteConfig

end PageLoom
