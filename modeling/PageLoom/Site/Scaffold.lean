import PageLoom.Config.Load

namespace PageLoom

/-!
# The first files of a site

A new site starts with a configuration and ten files: two pages, the layout parts, a script, a
stylesheet and an asset.

* `Scaffold.config` — the configuration, in the format that its path asks for;
* `Scaffold.files` — the ten files.
-/

namespace Scaffold

/-- Lines put together, without a line end after the last one. -/
private def joinLines (lines : List String) : String :=
  "\n".intercalate lines

/-- The characters of lines put together are those of the lines with line ends between them. -/
theorem toList_joinLines (lines : List String) :
    (joinLines lines).toList = ['\n'].intercalate (lines.map String.toList) :=
  String.toList_intercalate

/-- The first configuration of a site in TOML. -/
def configToml : String :=
  joinLines
    ["# stitch configuration",
     "",
     "[general]",
     "# Document language, written to <html lang=\"...\">",
     "lang = \"en\"",
     "",
     "[build]",
     "source = \"src\"",
     "output = \"dest\"",
     "stylesheet = \"style/style.css\"",
     "minify = false",
     "pretty = true",
     "",
     "# Per-page settings, keyed by file name without extension",
     "[pages.about]",
     "sidebar = false",
     "",
     "# Placeholder replacements, applied in order to each fragment.",
     "# A placeholder match starts at the first \"\x7b\x7b\" in the fragment, so list",
     "# directives in the order their placeholders appear.",
     "[[head.replacements]]",
     "symbol = \"title\"",
     "value = \"My Site\"",
     "",
     "[[head.replacements]]",
     "symbol = \"description\"",
     "value = \"Built with stitch\"",
     "",
     "[[header.replacements]]",
     "symbol = \"brand\"",
     "value = \"My Site\"",
     "",
     "[[footer.replacements]]",
     "symbol = \"copyright\"",
     "value = \"All rights reserved\""] ++ "\n"

/-- The first configuration of a site in JSON. -/
def configJson : String :=
  joinLines
    ["\x7b",
     "  \"general\": \x7b \"lang\": \"en\" \x7d,",
     "  \"build\": \x7b \"source\": \"src\", \"output\": \"dest\" \x7d,",
     "  \"pages\": \x7b \"about\": \x7b \"sidebar\": false \x7d \x7d,",
     "  \"head\": \x7b",
     "    \"replacements\": [",
     "      \x7b \"symbol\": \"title\", \"value\": \"My Site\" \x7d,",
     "      \x7b \"symbol\": \"description\", \"value\": \"Built with stitch\" \x7d",
     "    ]",
     "  \x7d,",
     "  \"header\": \x7b \"replacements\": [\x7b \"symbol\": \"brand\", \"value\": \"My Site\" \x7d] \x7d,",
     "  \"footer\": \x7b \"replacements\": [\x7b \"symbol\": \"copyright\", \"value\": \"All rights reserved\" \x7d] \x7d",
     "\x7d"] ++ "\n"

/-- The head of the first pages. -/
def headPart : String :=
  joinLines
    ["<head>",
     "  <meta charset=\"utf-8\">",
     "  <meta name=\"viewport\" content=\"width=device-width, initial-scale=1\">",
     "  <title>\x7b\x7b title \x7d\x7d</title>",
     "  <meta name=\"description\" content=\"\x7b\x7b description \x7d\x7d\">",
     "  <link rel=\"stylesheet\" href=\"style.css\">",
     "</head>"]

/-- The header with the navigation. -/
def headerPart : String :=
  joinLines
    ["<header class=\"header\">",
     "  <a class=\"brand\" href=\"index.html\">\x7b\x7b brand \x7d\x7d</a>",
     "  <ul class=\"menu-list\">",
     "    <li class=\"menu-list-item\"><a class=\"menu-list-item-link menu-list-item-link-index\" href=\"index.html\">Home</a></li>",
     "    <li class=\"menu-list-item\"><a class=\"menu-list-item-link menu-list-item-link-about\" href=\"about.html\">About</a></li>",
     "  </ul>",
     "</header>"]

/-- The sidebar. -/
def sidebarPart : String :=
  joinLines
    ["",
     "    <aside class=\"sidebar\">",
     "      <p>Sidebar content</p>",
     "    </aside>"]

/-- The footer. -/
def footerPart : String :=
  joinLines
    ["<footer class=\"footer\">",
     "  <p>\x7b\x7b copyright \x7d\x7d</p>",
     "</footer>"]

/-- The element that loads the scripts. -/
def scriptPart : String :=
  "<script src=\"bundle.js\"></script>"

/-- A first script. -/
def script : String :=
  "document.documentElement.classList.add('js');\n"

/-- The first page, in markup. -/
def indexPage : String :=
  joinLines
    ["<h1>Welcome</h1>",
     "<p>This page lives in <code>src/pages/index.html</code>.</p>"] ++ "\n"

/-- The second page, in Markdown. -/
def aboutPage : String :=
  joinLines
    ["# About",
     "",
     "This page is written in Markdown and rendered without a sidebar."] ++ "\n"

/-- The first stylesheet. -/
def stylesheet : String :=
  joinLines
    ["body \x7b",
     "  margin: 0;",
     "  font-family: system-ui, sans-serif;",
     "\x7d",
     "",
     ".main \x7b",
     "  display: flex;",
     "  gap: 2rem;",
     "\x7d",
     "",
     ".content-with-sidebar \x7b",
     "  flex: 3;",
     "\x7d",
     "",
     ".content-no-sidebar \x7b",
     "  flex: 1;",
     "\x7d",
     "",
     ".sidebar \x7b",
     "  flex: 1;",
     "\x7d",
     "",
     ".active-page \x7b",
     "  font-weight: bold;",
     "\x7d"] ++ "\n"

/-- What robots may visit. -/
def robots : String :=
  joinLines
    ["User-agent: *",
     "Allow: /"] ++ "\n"

/-- The configuration of a new site. -/
def config : ConfigFormat → String
  | .json => configJson
  | .toml => configToml

/-- The files of a new site, with their paths below the source directory. -/
def files : List (String × String) :=
  [("pages/index.html", indexPage),
   ("pages/about.md", aboutPage),
   ("parts/head/head.html", headPart),
   ("parts/header/header.html", headerPart),
   ("parts/sidebar/sidebar.html", sidebarPart),
   ("parts/footer/footer.html", footerPart),
   ("parts/script/script.html", scriptPart),
   ("parts/script/main.js", script),
   ("style/style.css", stylesheet),
   ("assets/robots.txt", robots)]

end Scaffold

end PageLoom
