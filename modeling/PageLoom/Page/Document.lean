import PageLoom.Splice.Basic
import PageLoom.Splice.ClassToken

namespace PageLoom

/-!
# Documents

A document is a page's content with the layout around it.

* `Fragments` — the layout parts of a site, ready for use;
* `navigationToken`, `markActive` — the header with the page's own link marked;
* `wrapContent` — the content in its container, with or without a sidebar;
* `Document.text` — the whole document.
-/

/-- The layout parts of a site, ready to be put around pages. -/
structure Fragments where
  head : String
  header : String
  sidebar : String
  footer : String
  script : String
  deriving DecidableEq, Repr

/-- The class that marks the link of the page being shown. -/
def activeClass : String := "active-page"

/-- The class by which the navigation link of a page is known. -/
def navigationToken (key : String) : String :=
  "menu-list-item-link-" ++ key

/-- The header with the class `activeClass` added to the navigation link of a page. -/
def markActive (header key : String) : String :=
  let token := navigationToken key
  let marked := token ++ " " ++ activeClass
  String.ofList (splice (.classToken token.toList) marked.toList header.toList)

/-- The content in the main container, followed by the sidebar if there is one. -/
def wrapContent (content : String) : Option String → String
  | none =>
    "<div class=\"main\">\n      <div class=\"content-no-sidebar\">\n        " ++ content ++
      "\n      </div>\n    </div>"
  | some sidebar =>
    "<div class=\"main\">\n    <div class=\"content-with-sidebar\">\n      " ++ content ++
      "\n    </div>" ++ sidebar ++ "\n  </div>"

/-- What a document is put together from. -/
structure Document where
  lang : String
  fragments : Fragments
  key : String
  content : String
  hasSidebar : Bool
  stamp : String

/-- The text of a document. -/
def Document.text (document : Document) : String :=
  let parts := document.fragments
  "<!DOCTYPE html>\n<html lang=\"" ++ document.lang ++ "\">\n" ++
    parts.head ++ "\n<body>\n  " ++
    markActive parts.header document.key ++ "\n  <div class=\"container\">\n    " ++
    wrapContent document.content (if document.hasSidebar then some parts.sidebar else none) ++
    "\n  </div>\n  " ++
    parts.footer ++ "\n  " ++
    parts.script ++ "\n  <!-- Last updated: " ++ document.stamp ++ " -->\n</body>\n</html>\n"

end PageLoom
