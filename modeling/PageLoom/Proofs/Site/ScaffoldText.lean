import PageLoom.Proofs.Config.Load
import PageLoom.Proofs.Page.Characters
import PageLoom.Proofs.Site.Stages
import PageLoom.Site.Scaffold
import PageLoom.Site.Standard

namespace PageLoom

/-!
# The texts of a new site

The two texts of a first configuration mean the same. With its directives no placeholder is left in
the layout parts, and no page brings one in.

* `Scaffold.siteConfig` — the first configuration of a site;
* `Scaffold.toList_configToml` — its text in TOML as sections with notes above them;
* `Scaffold.ofText_config` — what its text means, in either format;
* `applyDirectives_eq` — directives as replacements in characters;
* `Scaffold.fragments` — the layout parts with the directives applied;
* `Scaffold.read_stylesheet` — the first stylesheet, which takes in no other one;
* `brace_not_mem_pageText` — documents without braces.
-/

namespace Scaffold

/-! ### The configuration -/

/-- What the configuration of a new site says. -/
def siteConfig : SiteConfig where
  lang := "en"
  pages := [("about", ⟨some false⟩)]
  head := [⟨"title", "My Site"⟩, ⟨"description", "Built with stitch"⟩]
  header := [⟨"brand", "My Site"⟩]
  sidebar := []
  footer := [⟨"copyright", "All rights reserved"⟩]
  build := .default

/-- The tree of a first configuration, with what it says of the build. -/
def configTree (build : List (String × ConfigTree)) : ConfigTree :=
  .table
    [("general", .table [("lang", .text siteConfig.lang)]),
     ("build", .table build),
     ("pages", .table (siteConfig.pages.map fun page => (page.1, page.2.tree false))),
     ("head", sectionTree false siteConfig.head),
     ("header", sectionTree false siteConfig.header),
     ("footer", sectionTree false siteConfig.footer)]

/-- What a first configuration in JSON says of the build. -/
def jsonBuild : List (String × ConfigTree) :=
  [("source", .text "src"), ("output", .text "dest")]

/-- What a first configuration in TOML says of the build. -/
def tomlBuild : List (String × ConfigTree) :=
  jsonBuild ++
    [("stylesheet", .text "style/style.css"), ("minify", .bool false), ("pretty", .bool true)]

set_option maxRecDepth 20000 in
/-- The first configuration in JSON is read as its tree, to the end of the text. -/
theorem document_configJson :
    Json.document configJson.toList = ((configTree jsonBuild).datum, none) := by
  simp only [configJson, String.toList_append, toList_joinLines, List.map_cons, List.map_nil,
    String.reduceToList]
  rfl

/-! ### Its text in TOML -/

/-- The values of the build in the first configuration in TOML. -/
def buildPairs : List (String × Toml.Scalar) :=
  [("source", .text "src"), ("output", .text "dest"), ("stylesheet", .text "style/style.css"),
    ("minify", .bool false), ("pretty", .bool true)]

/-- The settings in front of the build, with the notes among them. -/
def generalLines : List Char :=
  Toml.noteLines ["# stitch configuration", ""] ++ (Toml.tableLine "general" ++
    (Toml.noteLines ["# Document language, written to <html lang=\"...\">"] ++
      Toml.pairLines (fun _ => false) [("lang", .text "en")]))

/-- The sections of the build and of the pages, with the notes above them. -/
def middleSections : List (List String × Toml.Section) :=
  [([""], .plain "build" buildPairs),
    (["", "# Per-page settings, keyed by file name without extension"],
      .tables "pages" [("about", [("sidebar", .bool false)])])]

/-- The directives of a part as a section. -/
def directiveItems (name : String) (directives : List Directive) : Toml.Section :=
  .items name "replacements" (directives.map Directive.pairs)

/-- The lines of some directives of the head. -/
def headLines (directives : List Directive) : List Char :=
  (directiveItems "head" directives).lines (fun _ => false) (fun _ => true)

/-- The notes above the directives. -/
def directiveNotes : List String :=
  ["", "# Placeholder replacements, applied in order to each fragment.",
    "# A placeholder match starts at the first \"\x7b\x7b\" in the fragment, so list",
    "# directives in the order their placeholders appear."]

/-- The sections behind the directives of the head, with the notes above them. -/
def lastSections : List (List String × Toml.Section) :=
  [([""], directiveItems "header" siteConfig.header),
    ([""], directiveItems "footer" siteConfig.footer)]

set_option maxRecDepth 20000 in
/-- The first configuration in TOML, section by section. -/
theorem toList_configToml :
    configToml.toList =
      generalLines ++ (Toml.notedLines (fun _ => false) (fun _ => true) middleSections ++
        (Toml.noteLines directiveNotes ++
          ((headLines (siteConfig.head.take 1) ++
              (Toml.noteLines [""] ++ headLines (siteConfig.head.drop 1))) ++
            Toml.notedLines (fun _ => false) (fun _ => true) lastSections))) := by
  simp only [configToml, String.toList_append, toList_joinLines, List.map_cons, List.map_nil,
    String.reduceToList]
  decide +kernel

/-- The settings in front of the build can be read. -/
theorem reads_generalLines :
    Toml.Reads generalLines .start
      ⟨.empty, Toml.pairTable [("lang", .text "en")], ["general"], false⟩ := by
  have hheader : Toml.Reads (Toml.tableLine "general") .start
      ⟨.empty, .empty, ["general"], false⟩ :=
    Toml.reads_table (by decide) (Toml.Draft.openTable?_new rfl (by decide))
  have hpairs : Toml.PairsFine [("lang", .text "en")] :=
    Toml.pairsFine_of_sublist ["lang"] (.refl _) (by decide) (by decide)
  exact (Toml.reads_notes _ (by decide)).trans (hheader.trans
    ((Toml.reads_notes _ (by decide)).trans (Toml.reads_pairs (fun _ => false) hpairs)))

/-- The sections of the build and of the pages can be read, and so can their notes. -/
theorem middleSections_fine :
    ∀ noted ∈ middleSections,
      (∀ note ∈ noted.1, Toml.isNote note.toList = true) ∧ noted.2.Fine := by
  have hbuild : (Toml.Section.plain "build" buildPairs).Fine :=
    ⟨by decide, Toml.pairsFine_of_sublist ["source", "output", "stylesheet", "minify", "pretty"]
      (.refl _) (by decide) (by decide)⟩
  have hpages : (Toml.Section.tables "pages" [("about", [("sidebar", .bool false)])]).Fine := by
    refine ⟨by decide, by decide, by decide, List.forall_mem_singleton.mpr ?_⟩
    exact Toml.pairsFine_of_sublist ["sidebar"] (.refl _) (by decide) (by decide)
  exact List.forall_mem_cons.mpr ⟨⟨by decide, hbuild⟩,
    List.forall_mem_singleton.mpr ⟨by decide, hpages⟩⟩

/-- The sections behind the directives of the head can be read, and so can their notes. -/
theorem lastSections_fine :
    ∀ noted ∈ lastSections,
      (∀ note ∈ noted.1, Toml.isNote note.toList = true) ∧ noted.2.Fine := by
  have hitems : ∀ {name directives}, Toml.IsBare name → directives ≠ [] →
      (directiveItems name directives).Fine := fun hname hne =>
    ⟨hname, by decide, by simpa using hne, fun _ => Directive.pairsFine_of_mem⟩
  exact List.forall_mem_cons.mpr ⟨⟨by decide, hitems (by decide) (by decide)⟩,
    List.forall_mem_singleton.mpr ⟨by decide, hitems (by decide) (by decide)⟩⟩

/-- The first configuration in TOML is read as its tree. -/
theorem document?_configToml :
    Toml.document? configToml.toList = some (configTree tomlBuild).datum := by
  have hgeneral : (Toml.Draft.mk .empty (Toml.pairTable [("lang", .text "en")]) ["general"]
      false).finish? = some (.mk false false
        [("general", .table (Toml.pairTable [("lang", .text "en")]))]) :=
    Toml.Draft.finish?_table _ (by decide)
  obtain ⟨inPages, hmiddle, hpages⟩ := Toml.exists_reads_notedLines (fun _ => false)
    (fun _ => true) middleSections_fine (by decide) hgeneral
  have hnotes := Toml.reads_notes inPages (by decide :
    ∀ note ∈ directiveNotes, Toml.isNote note.toList = true)
  -- The second directive stands below an empty line, and is one more item of the list.
  obtain ⟨inHead, hdirectives, hhead⟩ := Toml.Section.exists_reads_items_notes (fun _ => false)
    (fun _ => true) (by decide : Toml.IsBare "head") (by decide : Toml.IsBare "replacements")
    (by decide) (by decide : (siteConfig.head.take 1).map Directive.pairs ≠ [])
    (fun _ h => by
      rw [← List.map_append, List.take_append_drop] at h
      exact Directive.pairsFine_of_mem h)
    (by decide : ∀ note ∈ [""], Toml.isNote note.toList = true) hpages
  obtain ⟨inFooter, hlast, hfooter⟩ := Toml.exists_reads_notedLines (fun _ => false)
    (fun _ => true) lastSections_fine (by decide) hhead
  have hreads := reads_generalLines.trans
    (hmiddle.trans (hnotes.trans (hdirectives.trans hlast)))
  rw [toList_configToml]
  refine (Toml.document?_of_reads ?_ hreads hfooter).trans ?_
  · intro more heq
    exact absurd (List.cons.inj heq).1 (by decide)
  · rfl

end Scaffold

/-- The tree that a text in JSON is read as, with nothing behind it, tells its configuration. -/
theorem SiteConfig.ofText_of_jsonDocument {text : String} {datum : Datum}
    (h : Json.document text.toList = (datum, none)) : ofText .json text = ofDatum true datum := by
  simp only [ofText, h]
  cases ofDatum true datum <;> rfl

/-- So does the tree that a text in TOML is read as. -/
theorem SiteConfig.ofText_of_tomlDocument {text : String} {datum : Datum}
    (h : Toml.document? text.toList = some datum) : ofText .toml text = ofDatum false datum := by
  simp only [ofText, h]

namespace Scaffold

/-- **One configuration.** The first configuration means the same in either format. -/
theorem ofText_config (format : ConfigFormat) :
    SiteConfig.ofText format (config format) = .ok siteConfig := by
  cases format with
  | json =>
    have htree : SiteConfig.ofDatum true (configTree jsonBuild).datum = .ok siteConfig := by
      decide +kernel
    exact (SiteConfig.ofText_of_jsonDocument document_configJson).trans htree
  | toml =>
    have htree : SiteConfig.ofDatum false (configTree tomlBuild).datum = .ok siteConfig := by
      decide +kernel
    exact (SiteConfig.ofText_of_tomlDocument document?_configToml).trans htree

end Scaffold

/-! ### Directives -/

/-- The characters of a text after directives. -/
def spliceAll (directives : List Directive) (text : List Char) : List Char :=
  directives.foldl (fun text directive =>
    splice (.placeholder directive.symbol.toList) directive.value.toList text) text

/-- Directives whose symbols are short enough are applied to the characters of a text. -/
theorem applyDirectives_eq {directives : List Directive}
    (h : ∀ directive ∈ directives, symbolFits directive.symbol.toList = true) (text : String) :
    applyDirectives text directives = .ok (String.ofList (spliceAll directives text.toList)) := by
  induction directives generalizing text with
  | nil => simp [applyDirectives, spliceAll, pure, Except.pure]
  | cons directive directives ih =>
    obtain ⟨hfits, hmore⟩ := List.forall_mem_cons.mp h
    have hfirst : directive.apply text = .ok (String.ofList
        (splice (.placeholder directive.symbol.toList) directive.value.toList text.toList)) := by
      rw [Directive.apply, Needle.placeholder?, if_pos hfits]
      rfl
    have hrest := ih hmore (String.ofList
      (splice (.placeholder directive.symbol.toList) directive.value.toList text.toList))
    rw [String.toList_ofList] at hrest
    rw [applyDirectives, List.foldlM_cons, hfirst]
    exact hrest

namespace Scaffold

/-! ### The layout parts -/

/-- The text of a layout part of a new site. -/
def partText : Part → String
  | .head => headPart
  | .header => headerPart
  | .sidebar => sidebarPart
  | .footer => footerPart
  | .script => scriptPart

/-- The layout part of a new site with its directives applied. -/
def fragment (part : Part) : String :=
  String.ofList (spliceAll ((siteConfig.directives? part).getD []) (partText part).toList)

set_option maxRecDepth 20000 in
/-- No placeholder is left in a layout part. -/
theorem brace_not_mem_fragment (part : Part) : '{' ∉ (fragment part).toList := by
  rw [fragment, String.toList_ofList]
  cases part <;>
    simp only [partText, headPart, headerPart, sidebarPart, footerPart, scriptPart,
      toList_joinLines, List.map_cons, List.map_nil, String.reduceToList] <;>
    decide +kernel

/-- The layout parts of a new site. -/
def fragments : Fragments :=
  ⟨fragment .head, fragment .header, fragment .sidebar, fragment .footer, fragment .script⟩

/-! ### The stylesheet -/

set_option maxRecDepth 20000 in
/-- The first stylesheet can be read. It takes in no other one. -/
theorem read_stylesheet :
    ∃ sheet, Style.Sheet.read stylesheet = .ok sheet ∧ sheet.imports = [] := by
  have himports : (Style.Sheet.read stylesheet).map (·.imports) = .ok [] := by
    -- The length of the text is that of its characters, which are cheaper to count.
    simp only [Style.Sheet.read, Style.tokenize, ← String.length_toList, stylesheet,
      String.toList_append, toList_joinLines, List.map_cons, List.map_nil, String.reduceToList]
    decide +kernel
  cases hsheet : Style.Sheet.read stylesheet with
  | error cause =>
    rw [hsheet] at himports
    cases himports
  | ok sheet =>
    rw [hsheet] at himports
    exact ⟨sheet, rfl, Except.ok.inj himports⟩

/-! ### The pages -/

/-- The first page holds no opening brace. -/
theorem brace_not_mem_indexPage : '{' ∉ indexPage.toList := by
  simp only [indexPage, String.toList_append, toList_joinLines, List.map_cons, List.map_nil,
    String.reduceToList]
  decide +kernel

set_option maxRecDepth 20000 in
/-- The second page brings none into its markup. -/
theorem brace_not_mem_aboutPage : '{' ∉ (Markdown.toHtml aboutPage).toList := by
  simp only [Markdown.toHtml, aboutPage, String.toList_append, toList_joinLines, List.map_cons,
    List.map_nil, String.reduceToList]
  decide +kernel

end Scaffold

/-- **Pages.** A document holds no opening brace if none is in what it is put together from, and the
    layout of documents brings none in. -/
theorem brace_not_mem_pageText {tools : Toolchain} {config : SiteConfig} {fragments : Fragments}
    {page : PageSource} {text : String}
    (htools : ∀ text, '{' ∈ (tools.formatter text).toList → '{' ∈ text.toList)
    (hlang : '{' ∉ config.lang.toList) (hparts : ∀ part, '{' ∉ (fragments.part part).toList)
    (hkey : '{' ∉ page.key.toList) (hcontent : '{' ∉ (pageContent tools page.kind text).toList)
    (hstamp : '{' ∉ tools.stamp.toList) :
    '{' ∉ (pageText tools config fragments page text).toList := by
  intro hmem
  refine Document.brace_not_mem_text ?_ (htools _ hmem)
  exact ⟨hlang, hparts .head, hparts .header, hparts .sidebar, hparts .footer, hparts .script, hkey,
    hcontent, hstamp⟩

/-- The standard layout of documents brings no opening brace in. -/
theorem Toolchain.brace_mem_standard_formatter (order : ListingOrder) (stamp : String)
    (settings : BuildSettings) (text : String)
    (h : '{' ∈ ((standard order stamp settings).formatter text).toList) : '{' ∈ text.toList := by
  simp only [standard] at h
  split at h
  · rw [String.toList_ofList] at h
    rcases mem_of_mem_indent h with h | h | h
    · exact h
    · cases h
    · cases h
  · exact h

end PageLoom
