namespace PageLoom

/-!
# Layout parts

* `Part` — the five pieces of markup that are wrapped around every page;
* `Part.name`, `Part.all` — their names and their order.
-/

/-- A piece of markup that is wrapped around every page. -/
inductive Part where
  | head
  | header
  | sidebar
  | footer
  | script
  deriving DecidableEq, Repr

namespace Part

/-- The name of a part, which is also the name of its directory and its file. -/
def name : Part → String
  | .head => "head"
  | .header => "header"
  | .sidebar => "sidebar"
  | .footer => "footer"
  | .script => "script"

/-- The parts in the order in which they are loaded. -/
def all : List Part :=
  [.head, .header, .sidebar, .footer, .script]

end Part

end PageLoom
