import PageLoom.Proofs.Config.Json
import PageLoom.Proofs.Config.TomlSection

namespace PageLoom

/-!
# Configurations that are written and loaded

A configuration may be written in JSON or in TOML. Whichever fields are left out where they have
their default, both texts are loaded as the configuration that was written.

* `SiteConfig.sections` — the sections of a configuration;
* `SiteConfig.document?_toml` — the tree of the text in TOML is the one that is written in JSON;
* `SiteConfig.load_written` — both texts are loaded as they were written.
-/

/-! ### Members -/

section Members

variable {α β γ : Type} [DecidableEq α]

/-- What is written for a field can be changed after it was written. -/
theorem map_omittable (f : β → γ) (skip : Bool) (name : String) (value default : α)
    (write : α → β) :
    (omittable skip name value default write).map (fun member => (some member.1, f member.2)) =
      (omittable skip name value default (f ∘ write)).map
        fun member => (some member.1, member.2) := by
  rw [omittable, omittable]
  split <;> rfl

/-- Nothing but its own name is written for a field. -/
theorem keys_omittable (skip : Bool) (name : String) (value default : α) (write : α → β) :
    ((omittable skip name value default write).map Prod.fst).Sublist [name] := by
  rw [omittable]
  split
  · exact List.nil_sublist _
  · exact .refl _

end Members

namespace Toml

/-- The members of a table are those of its entries. -/
theorem entryData_eq_map (entries : List (String × Entry)) :
    entryData entries = entries.map fun entry => (some entry.1, entry.2.datum) := by
  induction entries with
  | nil => rfl
  | cons entry entries ih => rw [entryData, ih, List.map_cons]

/-- The items of a list of tables are those tables. -/
theorem tableData_eq_map (tables : List Table) : tableData tables = tables.map Table.datum := by
  induction tables with
  | nil => rfl
  | cons table tables ih => rw [tableData, ih, List.map_cons]

/-- The tree of some values. -/
theorem pairTable_datum (pairs : List (String × Scalar)) :
    (pairTable pairs).datum = .map (pairs.map fun pair => (some pair.1, pair.2.datum)) none := by
  rw [pairTable, Table.datum, entryData_eq_map, List.map_map]
  rfl

/-- Values have fine keys if these are among some that are fine. -/
theorem pairsFine_of_sublist {pairs : List (String × Scalar)} (keys : List String)
    (h : (pairs.map Prod.fst).Sublist keys) (hnodup : keys.Nodup)
    (hbare : ∀ key ∈ keys, IsBare key) : PairsFine pairs :=
  ⟨hnodup.sublist h, fun _ hpair => hbare _ (h.subset (List.mem_map_of_mem hpair))⟩

end Toml

/-! ### Sections -/

/-- The values of a directive. -/
def Directive.pairs (directive : Directive) : List (String × Toml.Scalar) :=
  [("symbol", .text directive.symbol), ("value", .text directive.value)]

/-- The values of the settings of a page. Where nothing is said of the sidebar there is none. -/
def PageSettings.pairs (settings : PageSettings) : List (String × Toml.Scalar) :=
  match settings.sidebar with
  | none => []
  | some value => [("sidebar", .bool value)]

/-- The section of the pages. -/
def pagesSections (omission : Omission) (pages : List (String × PageSettings)) :
    List Toml.Section :=
  if pages = [] then if omission.pages then [] else [.plain "pages" []]
  else [.tables "pages" (pages.map fun page => (page.1, page.2.pairs))]

/-- The section of a part. -/
def partSections (skipPart skipList : Bool) (name : String) (directives : List Directive) :
    List Toml.Section :=
  if directives = [] then
    if skipPart then [] else [.plain name (if skipList then [] else [("replacements", .nothing)])]
  else [.items name "replacements" (directives.map Directive.pairs)]

/-- The section of the build. -/
def buildSections (omission : Omission) (build : BuildSettings) : List Toml.Section :=
  (omittable omission.build "build" build .default fun build =>
    build.members Toml.Scalar.text Toml.Scalar.bool omission).map fun member =>
    .plain member.1 member.2

namespace SiteConfig

/-- The sections of a configuration, in their declared order. -/
def sections (omission : Omission) (config : SiteConfig) : List Toml.Section :=
  .plain "general" [("lang", .text config.lang)] ::
  (pagesSections omission config.pages ++
  (partSections (omission.part .head) (omission.replacements .head) "head" config.head ++
  (partSections (omission.part .header) (omission.replacements .header) "header" config.header ++
  (partSections (omission.part .sidebar) (omission.replacements .sidebar) "sidebar"
    config.sidebar ++
  (partSections (omission.part .footer) (omission.replacements .footer) "footer" config.footer ++
  buildSections omission config.build)))))

/-- The text of a configuration in TOML. -/
def toml (omission : Omission) (wished : Char → Bool) (bare : String → Bool)
    (config : SiteConfig) : String :=
  String.ofList ((config.sections omission).flatMap (Toml.Section.lines wished bare))

end SiteConfig

/-! ### Names and keys -/

/-- All sections are fine, and their names are among some. -/
structure SectionsFine (sections : List Toml.Section) (names : List String) : Prop where
  fine : ∀ block ∈ sections, block.Fine
  names : (sections.map Toml.Section.name).Sublist names

theorem SectionsFine.append {sections sections' : List Toml.Section} {names names' : List String}
    (h : SectionsFine sections names) (h' : SectionsFine sections' names') :
    SectionsFine (sections ++ sections') (names ++ names') := by
  refine ⟨List.forall_mem_append.mpr ⟨h.fine, h'.fine⟩, ?_⟩
  rw [List.map_append]
  exact h.names.append h'.names

theorem sectionsFine_nil (names : List String) : SectionsFine [] names :=
  ⟨by simp, List.nil_sublist _⟩

theorem sectionsFine_singleton {block : Toml.Section} (h : block.Fine) :
    SectionsFine [block] [block.name] :=
  ⟨by simpa using h, .refl _⟩

/-- Values with keys among some that need no quotes are fine. -/
theorem PageSettings.pairs_fine (settings : PageSettings) : Toml.PairsFine settings.pairs := by
  refine Toml.pairsFine_of_sublist ["sidebar"] ?_ (by decide) (by decide)
  rw [PageSettings.pairs]
  split
  · exact List.nil_sublist _
  · exact .refl _

theorem Directive.pairs_fine (directive : Directive) : Toml.PairsFine directive.pairs :=
  Toml.pairsFine_of_sublist ["symbol", "value"] (.refl _) (by decide) (by decide)

/-- The values of every directive are fine. -/
theorem Directive.pairsFine_of_mem {directives : List Directive}
    {pairs : List (String × Toml.Scalar)} (h : pairs ∈ directives.map Directive.pairs) :
    Toml.PairsFine pairs := by
  obtain ⟨directive, -, rfl⟩ := List.mem_map.mp h
  exact directive.pairs_fine

/-- The settings of the build are written with their own names. -/
theorem BuildSettings.members_fine (omission : Omission) (build : BuildSettings) :
    Toml.PairsFine (build.members Toml.Scalar.text Toml.Scalar.bool omission) := by
  refine Toml.pairsFine_of_sublist
    (["source"] ++ (["output"] ++ (["stylesheet"] ++ (["minify"] ++ ["pretty"])))) ?_
    (by decide) (by decide)
  simp only [BuildSettings.members, List.map_append]
  exact (keys_omittable ..).append <| (keys_omittable ..).append <| (keys_omittable ..).append <|
    (keys_omittable ..).append (keys_omittable ..)

theorem pagesSections_fine (omission : Omission) {pages : List (String × PageSettings)}
    (hpages : (pages.map Prod.fst).Nodup) :
    SectionsFine (pagesSections omission pages) ["pages"] := by
  have hname : Toml.IsBare "pages" := by decide
  rw [pagesSections]
  split
  · split
    · exact sectionsFine_nil _
    · exact sectionsFine_singleton ⟨hname, ⟨.nil, by simp⟩⟩
  · rename_i hne
    refine sectionsFine_singleton ⟨hname, by simpa using hne, ?_, ?_⟩
    · rwa [List.map_map]
    · intro inner hinner
      obtain ⟨page, -, rfl⟩ := List.mem_map.mp hinner
      exact page.2.pairs_fine

theorem partSections_fine (skipPart skipList : Bool) {name : String} (hname : Toml.IsBare name)
    (directives : List Directive) :
    SectionsFine (partSections skipPart skipList name directives) [name] := by
  have hkey : Toml.IsBare "replacements" := by decide
  rw [partSections]
  split
  · split
    · exact sectionsFine_nil _
    · refine sectionsFine_singleton ⟨hname, ?_⟩
      split
      · exact ⟨.nil, by simp⟩
      · exact ⟨by simp, by simpa using hkey⟩
  · rename_i hne
    exact sectionsFine_singleton
      ⟨hname, hkey, by simpa using hne, fun _ => Directive.pairsFine_of_mem⟩

theorem buildSections_fine (omission : Omission) (build : BuildSettings) :
    SectionsFine (buildSections omission build) ["build"] := by
  have hname : Toml.IsBare "build" := by decide
  rw [buildSections, omittable]
  split
  · exact sectionsFine_nil _
  · exact sectionsFine_singleton ⟨hname, build.members_fine omission⟩

/-- **Names.** The sections of a configuration are fine, and their names differ. -/
theorem SiteConfig.sections_fine (omission : Omission) {config : SiteConfig}
    (hpages : (config.pages.map Prod.fst).Nodup) :
    (∀ block ∈ config.sections omission, block.Fine) ∧
      ((config.sections omission).map Toml.Section.name).Nodup := by
  have hgeneral : SectionsFine [.plain "general" [("lang", .text config.lang)]] ["general"] := by
    have hlang : Toml.IsBare "lang" := by decide
    exact sectionsFine_singleton ⟨by decide, ⟨by simp, by simpa using hlang⟩⟩
  have hall := hgeneral.append <| (pagesSections_fine omission hpages).append <|
    (partSections_fine (omission.part .head) (omission.replacements .head)
      (by decide : Toml.IsBare "head") config.head).append <|
    (partSections_fine (omission.part .header) (omission.replacements .header)
      (by decide : Toml.IsBare "header") config.header).append <|
    (partSections_fine (omission.part .sidebar) (omission.replacements .sidebar)
      (by decide : Toml.IsBare "sidebar") config.sidebar).append <|
    (partSections_fine (omission.part .footer) (omission.replacements .footer)
      (by decide : Toml.IsBare "footer") config.footer).append <|
    buildSections_fine omission config.build
  exact ⟨hall.fine, List.Nodup.sublist hall.names (by decide)⟩

/-! ### Trees -/

/-- What a section adds to the tree of a document. -/
def sectionMembers (sections : List Toml.Section) : List (Option String × Datum) :=
  sections.map fun block => (some block.name, block.table.datum)

theorem sectionMembers_cons (block : Toml.Section) (sections : List Toml.Section) :
    sectionMembers (block :: sections) =
      (some block.name, block.table.datum) :: sectionMembers sections :=
  rfl

theorem sectionMembers_append (sections more : List Toml.Section) :
    sectionMembers (sections ++ more) = sectionMembers sections ++ sectionMembers more :=
  List.map_append

/-- The tree of a document has the members of its sections. -/
theorem sections_datum (sections : List Toml.Section) :
    (Toml.Table.mk false false (sections.map fun block => (block.name, .table block.table))).datum =
      .map (sectionMembers sections) none := by
  rw [Toml.Table.datum, Toml.entryData_eq_map, List.map_map]
  rfl

/-- The settings of a page have the same tree in both formats. -/
theorem PageSettings.pairs_datum (settings : PageSettings) :
    (Toml.pairTable settings.pairs).datum = (settings.tree true).datum := by
  cases settings with
  | mk sidebar => cases sidebar <;> rfl

/-- The settings of the build have the same tree in both formats. -/
theorem BuildSettings.members_datum (omission : Omission) (build : BuildSettings) :
    (Toml.pairTable (build.members Toml.Scalar.text Toml.Scalar.bool omission)).datum =
      (build.tree omission).datum := by
  rw [Toml.pairTable_datum, BuildSettings.tree, ConfigTree.datum, ConfigTree.memberData_eq_map]
  simp only [BuildSettings.members, List.map_append, map_omittable]
  rfl

/-- The pages have the same tree in both formats. -/
theorem pagesSections_members (omission : Omission) (pages : List (String × PageSettings)) :
    sectionMembers (pagesSections omission pages) =
      ConfigTree.memberData (omittable omission.pages "pages" pages []
        (pagesTree { omission with pageSidebar := fun _ => true })) := by
  have hpages : (Toml.Section.table (.tables "pages"
      (pages.map fun page => (page.1, page.2.pairs)))).datum =
      (pagesTree { omission with pageSidebar := fun _ => true } pages).datum := by
    rw [Toml.Section.table, Toml.Table.datum, Toml.entryData_eq_map, pagesTree, ConfigTree.datum,
      ConfigTree.memberData_eq_map]
    simp only [List.map_map, Function.comp_def, Toml.Entry.datum, PageSettings.pairs_datum]
  rw [pagesSections, omittable]
  -- Without pages the section is a plain one, which has a header of its own.
  by_cases hnone : pages = []
  · subst hnone
    cases omission.pages <;> rfl
  · rw [if_neg hnone, if_neg fun h => hnone h.2]
    exact congrArg (fun datum => [(some "pages", datum)]) hpages

/-- The directives of a part have the same tree in both formats. -/
theorem partSections_members (skipPart skipList : Bool) (name : String)
    (directives : List Directive) :
    sectionMembers (partSections skipPart skipList name directives) =
      ConfigTree.memberData (omittable skipPart name directives [] (sectionTree skipList)) := by
  have hitems : (directives.map fun directive => (Toml.pairTable directive.pairs).datum) =
      ConfigTree.itemData (directives.map Directive.tree) := by
    rw [ConfigTree.itemData_eq_map, List.map_map]
    rfl
  rw [partSections, omittable]
  by_cases hnone : directives = []
  · subst hnone
    cases skipPart <;> cases skipList <;> rfl
  · rw [if_neg hnone, if_neg fun h => hnone h.2, sectionTree, omittable, if_neg fun h => hnone h.2]
    simp only [sectionMembers, List.map_cons, List.map_nil, Toml.Section.table, Toml.Table.datum,
      Toml.entryData, Toml.Entry.datum, Toml.tableData_eq_map, List.map_map, ConfigTree.memberData,
      ConfigTree.datum, ← hitems]
    rfl

/-- The build has the same tree in both formats. -/
theorem buildSections_members (omission : Omission) (build : BuildSettings) :
    sectionMembers (buildSections omission build) =
      ConfigTree.memberData
        (omittable omission.build "build" build .default (BuildSettings.tree omission)) := by
  rw [buildSections, omittable, omittable]
  split
  · rfl
  · exact congrArg (fun datum => [(some "build", datum)]) (build.members_datum omission)

/-! ### Texts and files -/

/-- A file with the bytes of a text is read as that text. -/
theorem Disk.readText_of_readBytes {disk : Disk} {path : Path} {text : String}
    (h : disk.readBytes path = .ok text.toUTF8) : disk.readText path = .ok text := by
  -- The bytes of a text are always valid.
  have hvalid : String.fromUTF8? text.toUTF8 = some text := dif_pos text.isValidUTF8
  rw [Disk.readText, h]
  simp only [bind, Except.bind, hvalid]
  rfl

namespace SiteConfig

/-- **One tree.** The text of a configuration in TOML has the tree that is written in JSON. Where
    nothing is said of the sidebar of a page there is nothing to be written in TOML. -/
theorem document?_toml (omission : Omission) (wished : Char → Bool) (bare : String → Bool)
    {config : SiteConfig} (hpages : (config.pages.map Prod.fst).Nodup) :
    Toml.document? (config.toml omission wished bare).toList =
      some (config.tree { omission with pageSidebar := fun _ => true }).datum := by
  obtain ⟨hfine, hnodup⟩ := sections_fine omission hpages
  rw [toml, String.toList_ofList, Toml.document?_sections wished bare hfine hnodup, sections_datum,
    tree, ConfigTree.datum, sections, sectionMembers_cons]
  simp only [sectionMembers_append, pagesSections_members, partSections_members,
    buildSections_members, ConfigTree.memberData, ConfigTree.memberData_append]
  rfl

/-- **TOML.** The text of a configuration in TOML gives that configuration. -/
theorem ofText_toml (omission : Omission) (wished : Char → Bool) (bare : String → Bool)
    {config : SiteConfig} (hpages : (config.pages.map Prod.fst).Nodup) :
    ofText .toml (config.toml omission wished bare) = .ok config := by
  rw [ofText, document?_toml omission wished bare hpages]
  exact ofDatum_tree false _ hpages

/-- A file with a text that gives a configuration is loaded as that. -/
theorem load_of_ofText {disk : Disk} {path : Path} {text : String} {config : SiteConfig}
    (hbytes : disk.readBytes path = .ok text.toUTF8)
    (htext : ofText (.ofPath path) text = .ok config) : load disk path = .ok config := by
  rw [load, Disk.readText_of_readBytes hbytes]
  simp only [htext]

/-- **Both formats.** A configuration that was written to a file is loaded as it was: in JSON from
    a path with the extension `json`, in capital or small letters, and in TOML from any other path.
    The keys of the pages differ. It does not matter which fields were left out where they have
    their default, nor which characters were written by their codes or which keys without quotes. -/
theorem load_written (disk : Disk) (path : Path) {config : SiteConfig}
    (hpages : (config.pages.map Prod.fst).Nodup) (omission : Omission) (wished : Char → Bool)
    (bare : String → Bool) :
    (path.extension?.map (·.toLower) = some "json" →
      disk.readBytes path = .ok (config.json omission wished).toUTF8 →
      load disk path = .ok config) ∧
    (path.extension?.map (·.toLower) ≠ some "json" →
      disk.readBytes path = .ok (config.toml omission wished bare).toUTF8 →
      load disk path = .ok config) := by
  constructor
  · intro hpath hbytes
    refine load_of_ofText hbytes ?_
    rw [ConfigFormat.ofPath, if_pos hpath]
    exact ofText_json omission wished hpages
  · intro hpath hbytes
    refine load_of_ofText hbytes ?_
    rw [ConfigFormat.ofPath, if_neg hpath]
    exact ofText_toml omission wished bare hpages

/-- A configuration with a language that needs quoting and pages with and without a sidebar. Two
    directives stand in its header, and its output is set. -/
def manual : SiteConfig where
  lang := "e\"n"
  pages := [("index", ⟨none⟩), ("über uns", ⟨some false⟩), ("a", ⟨some true⟩)]
  head := []
  header := [⟨"\\title", "line\nline"⟩, ⟨"", "x"⟩]
  sidebar := []
  footer := []
  build := ⟨⟨"src"⟩, ⟨"out/site"⟩, ⟨"style/style.css"⟩, true, true⟩

/-- Leaves out all that may be left out. -/
def shortly : Omission where
  pages := true
  pageSidebar := fun _ => true
  part := fun _ => true
  replacements := fun _ => true
  build := true
  source := true
  output := true
  stylesheet := true
  minify := true
  pretty := true

/-- A directory with the configuration in both formats. -/
def manualDisk : Disk where
  home := []
  nodes :=
    [(["site.JSON"], .file (manual.json shortly fun _ => false).toUTF8),
      (["site.toml"], .file (manual.toml shortly (fun _ => false) fun _ => true).toUTF8)]

/-- The configuration is loaded from both files. -/
theorem load_written_manual :
    load manualDisk ⟨"site.JSON"⟩ = .ok manual ∧ load manualDisk ⟨"site.toml"⟩ = .ok manual :=
  have hpages : (manual.pages.map Prod.fst).Nodup := by decide
  ⟨(load_written manualDisk ⟨"site.JSON"⟩ hpages shortly (fun _ => false) fun _ => true).1
      (by decide +kernel) rfl,
    (load_written manualDisk ⟨"site.toml"⟩ hpages shortly (fun _ => false) fun _ => true).2
      (by decide +kernel) rfl⟩

end SiteConfig

end PageLoom
