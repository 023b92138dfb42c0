import PageLoom.Proofs.Site.Copy
import PageLoom.Site.Build

namespace PageLoom

/-!
# The stages of a build

Each stage of a build reads and then writes. What it leaves is told for both outcomes: the files
that it wrote if it succeeded, and those that it wrote before it failed.

* `WroteBelow`, `OutputReady` — a file written right into the output directory;
* `PartLoaded`, `loadFragments_ok` — the layout parts with their directives applied;
* `PagesWritten`, `buildPages_ok`, `buildPages_error` — pages, one after the other;
* `buildStylesheet_ok`, `bundleScripts_ok`, … — the later stages.
-/

/-! ### Names in the output -/

/-- A file name holds no slash. -/
theorem slash_not_mem_fileName {path : Path} {name : String} (h : path.fileName? = some name) :
    '/' ∉ name.toList := by
  rw [Path.fileName?] at h
  split at h
  · rename_i part hpart
    split at h
    · cases h
    · cases h
      rw [String.toList_ofList]
      obtain ⟨silent, -, hparts⟩ := Path.exists_eq_trimSegments_append (segments path.text.toList)
      have hmem : part ∈ segments path.text.toList := by
        rw [hparts]
        exact List.mem_append_left _ (List.mem_of_getLast? hpart)
      exact slash_not_mem_of_mem_segments hmem
  · cases h

/-- The key of a page holds no slash. -/
theorem slash_not_mem_key (path output : Path) :
    '/' ∉ (PageSource.of path output).key.toList := by
  intro hmem
  have hname : '/' ∈ (path.fileName?.getD "").toList := by
    simp only [PageSource.of, keyOf, String.toList_ofList] at hmem
    exact (List.takeWhile_sublist _).subset hmem
  cases hfile : path.fileName? with
  | none => simp [hfile] at hname
  | some name =>
    rw [hfile] at hname
    exact slash_not_mem_fileName hfile hname

/-- The key of a page holds no dot. -/
theorem dot_not_mem_key (path output : Path) : '.' ∉ (PageSource.of path output).key.toList := by
  intro hmem
  simp only [PageSource.of, keyOf, String.toList_ofList] at hmem
  simpa using List.mem_takeWhile_imp hmem

/-- The key of a page with its extension is a name. -/
theorem isName_pageFile (path output : Path) :
    IsName ((PageSource.of path output).key ++ ".html") := by
  refine ⟨by simp, ?_, fun heq => ?_, fun heq => ?_⟩
  · rw [String.toList_append, List.mem_append, not_or]
    exact ⟨slash_not_mem_key path output, by decide⟩
  · have hlength := congrArg List.length heq
    simp at hlength
  · have hlength := congrArg List.length heq
    simp at hlength

/-! ### Files in the output -/

/-- A file with the text was written right below a place. -/
def WroteBelow (place : Location) (name text : String) (before after : Disk) : Prop :=
  before.FileFits (name :: place) ∧ after = before.put (name :: place) (.file text.toUTF8)

/-- The output directory stands at a place with no links below. -/
structure OutputReady (disk : Disk) (output : Path) (place : Location) : Prop where
  stands : disk.StandsAt output place
  noLinks : disk.NoLinksBelow place

variable {before middle after disk : Disk} {output : Path} {place : Location} {name text : String}

/-- Only the written file changed. -/
theorem WroteBelow.changes (h : WroteBelow place name text before after) :
    before.Changes (fun _ => False) (· = name :: place) after := by
  rw [h.2]
  exact Disk.changes_put_file h.1 _

/-- The written file is there. -/
theorem WroteBelow.node (h : WroteBelow place name text before after) :
    after.node? (name :: place) = some (.file text.toUTF8) := by
  rw [h.2, Disk.node?_put_self]

/-- The place that a file was written right below is a directory. -/
theorem WroteBelow.dir (h : WroteBelow place name text before after) (wf : before.WellFormed) :
    before.node? place = some .dir := by
  rcases h.1 with ⟨old, hold⟩ | ⟨-, _, _, hplace, -, hup⟩
  · exact wf.parent hold
  · cases hplace
    exact hup

/-- An output directory stays ready. -/
theorem OutputReady.grows (h : OutputReady before output place) (hgrows : before.Grows after) :
    OutputReady after output place :=
  ⟨h.stands.grows hgrows, h.noLinks.grows hgrows⟩

section Actions

variable {ε : Type} {onError : IoError → ε} {session final : Session} {e : ε}

/-- What is written into a ready output directory stands right below it. -/
theorem writeOutput_ok {value : Unit}
    (h : (Action.writeFile onError (output.join name) text).run session = .ok value final)
    (hready : OutputReady session.disk output place) (hname : IsName name) :
    WroteBelow place name text session.disk final.disk := by
  obtain ⟨parent, hparent, htrims⟩ := output.exists_parent?_join hname
  rw [Action.writeFile_below hparent (hready.stands.trims htrims)] at h
  obtain ⟨written, hwrite, rfl⟩ := Action.change_ok_iff.mp h
  obtain ⟨location, hleads, hfits, rfl⟩ := Disk.write_ok hwrite
  cases (Disk.pathLeads_join_iff hname hready.stands.pathLeads
    fun target => hready.noLinks name place target List.suffix_rfl).mp hleads
  exact ⟨hfits, rfl⟩

/-- What is not written into a ready output directory changes nothing. -/
theorem writeOutput_error
    (h : (Action.writeFile onError (output.join name) text).run session = .error e final)
    (hready : OutputReady session.disk output place) (hname : IsName name) :
    final = session ∧ ∃ cause, e = onError cause := by
  obtain ⟨parent, hparent, htrims⟩ := output.exists_parent?_join hname
  rw [Action.writeFile_below hparent (hready.stands.trims htrims)] at h
  obtain ⟨cause, -, rfl, rfl⟩ := Action.change_error_iff.mp h
  exact ⟨rfl, cause, rfl⟩

end Actions

/-! ### Finding pages and loading parts -/

variable {tools : Toolchain} {config : SiteConfig} {layout : SiteLayout} {session final : Session}
  {e : BuildError}

/-- The pages are those that the scan found. -/
theorem findPages_ok_iff {pages : List PageSource} :
    (findPages tools layout).run session = .ok pages final ↔
      ∃ paths, session.disk.scan tools.order layout.pagesDir pageFilter = .ok paths ∧
        pages = paths.map (PageSource.of · layout.output) ∧ final = session := by
  simp only [findPages, Action.run_bind_ok_iff, Action.look_ok_iff]
  constructor
  · rintro ⟨paths, middle, ⟨hscan, rfl⟩, h⟩
    cases h
    exact ⟨paths, hscan, rfl, rfl⟩
  · rintro ⟨paths, hscan, rfl, rfl⟩
    exact ⟨paths, final, ⟨hscan, rfl⟩, rfl⟩

/-- Finding the pages fails if the scan does. -/
theorem findPages_error_iff :
    (findPages tools layout).run session = .error e final ↔
      ∃ cause, session.disk.scan tools.order layout.pagesDir pageFilter = .error cause ∧
        e = .scan .pages cause ∧ final = session := by
  simp only [findPages, Action.run_bind_error_iff, Action.look_error_iff]
  constructor
  · rintro (h | ⟨paths, middle, -, h⟩)
    · exact h
    · cases h
  · exact .inl

/-- The text of a part. -/
def Fragments.part (fragments : Fragments) : Part → String
  | .head => fragments.head
  | .header => fragments.header
  | .sidebar => fragments.sidebar
  | .footer => fragments.footer
  | .script => fragments.script

/-- The text is that of the part's file, with the part's directives applied. -/
def PartLoaded (config : SiteConfig) (disk : Disk) (part : Part) (text : String) : Prop :=
  ∃ raw, disk.HoldsText (config.layout.partFile part) raw ∧
    match config.directives? part with
    | none => text = raw
    | some directives => applyDirectives raw directives = .ok text

/-- A part that was loaded is as its file and the directives say. -/
theorem loadPart_ok {part : Part} (h : (loadPart config part).run session = .ok text final) :
    final.disk = session.disk ∧ PartLoaded config session.disk part text := by
  obtain ⟨raw, start, hlook, hrest⟩ := Action.run_bind_ok_iff.mp h
  obtain ⟨hread, rfl⟩ := Action.look_ok_iff.mp hlook
  have hholds := Disk.holdsText_of_readText hread
  rw [PartLoaded]
  cases hdirectives : config.directives? part with
  | none =>
    rw [hdirectives] at hrest
    cases hrest
    exact ⟨rfl, _, hholds, rfl⟩
  | some directives =>
    rw [hdirectives] at hrest
    simp only [Action.run_tell_bind] at hrest
    cases happly : applyDirectives raw directives with
    | error cause =>
      rw [happly] at hrest
      cases hrest
    | ok result =>
      rw [happly] at hrest
      cases hrest
      exact ⟨rfl, raw, hholds, happly⟩

/-- Why the parts were not loaded: one cannot be read, or has a directive that cannot be
    applied. -/
def PartFailed (layout : SiteLayout) (e : BuildError) : Prop :=
  (∃ part cause, e = .read .fragments (layout.partFile part) cause) ∨
    ∃ part cause, e = .pattern part cause

/-- A part that was not loaded changed nothing. -/
theorem loadPart_error {part : Part} (h : (loadPart config part).run session = .error e final) :
    final.disk = session.disk ∧ PartFailed config.layout e := by
  rcases Action.run_bind_error_iff.mp h with hlook | ⟨raw, start, hlook, hrest⟩
  · obtain ⟨cause, -, rfl, rfl⟩ := Action.look_error_iff.mp hlook
    exact ⟨rfl, .inl ⟨part, cause, rfl⟩⟩
  obtain ⟨-, rfl⟩ := Action.look_ok_iff.mp hlook
  cases hdirectives : config.directives? part with
  | none =>
    rw [hdirectives] at hrest
    cases hrest
  | some directives =>
    rw [hdirectives] at hrest
    simp only [Action.run_tell_bind] at hrest
    cases happly : applyDirectives raw directives with
    | error cause =>
      rw [happly] at hrest
      cases hrest
      exact ⟨rfl, .inr ⟨part, cause, rfl⟩⟩
    | ok result =>
      rw [happly] at hrest
      cases hrest

/-- **Loading.** All parts that were loaded are as their files and the directives say. -/
theorem loadFragments_ok {fragments : Fragments}
    (h : (loadFragments config).run session = .ok fragments final) :
    final.disk = session.disk ∧
      ∀ part, PartLoaded config session.disk part (fragments.part part) := by
  obtain ⟨head, s₁, hhead, h⟩ := Action.run_bind_ok_iff.mp h
  obtain ⟨header, s₂, hheader, h⟩ := Action.run_bind_ok_iff.mp h
  obtain ⟨sidebar, s₃, hsidebar, h⟩ := Action.run_bind_ok_iff.mp h
  obtain ⟨footer, s₄, hfooter, h⟩ := Action.run_bind_ok_iff.mp h
  obtain ⟨script, s₅, hscript, h⟩ := Action.run_bind_ok_iff.mp h
  cases h
  -- Loading changes no disk, so all parts were read from the first one.
  obtain ⟨hd₁, hhead⟩ := loadPart_ok hhead
  obtain ⟨hd₂, hheader⟩ := loadPart_ok hheader
  obtain ⟨hd₃, hsidebar⟩ := loadPart_ok hsidebar
  obtain ⟨hd₄, hfooter⟩ := loadPart_ok hfooter
  obtain ⟨hd₅, hscript⟩ := loadPart_ok hscript
  rw [hd₁] at hheader hd₂
  rw [hd₂] at hsidebar hd₃
  rw [hd₃] at hfooter hd₄
  rw [hd₄] at hscript hd₅
  refine ⟨hd₅, fun part => ?_⟩
  cases part with
  | head => exact hhead
  | header => exact hheader
  | sidebar => exact hsidebar
  | footer => exact hfooter
  | script => exact hscript

/-- What comes after a part fails if the part does not. -/
theorem bind_loadPart_error {α : Type} {part : Part} {next : String → Action BuildError α}
    (h : (loadPart config part >>= next).run session = .error e final) :
    (final.disk = session.disk ∧ PartFailed config.layout e) ∨
      ∃ text middle, middle.disk = session.disk ∧ (next text).run middle = .error e final := by
  rcases Action.run_bind_error_iff.mp h with h | ⟨text, middle, hpart, h⟩
  · exact .inl (loadPart_error h)
  · exact .inr ⟨text, middle, (loadPart_ok hpart).1, h⟩

/-- If the parts are not loaded, one of them fails, and nothing changed. -/
theorem loadFragments_error (h : (loadFragments config).run session = .error e final) :
    final.disk = session.disk ∧ PartFailed config.layout e := by
  rcases bind_loadPart_error h with hfailed | ⟨_, s₁, hd₁, h⟩
  · exact hfailed
  rcases bind_loadPart_error h with hfailed | ⟨_, s₂, hd₂, h⟩
  · rwa [hd₁] at hfailed
  rcases bind_loadPart_error h with hfailed | ⟨_, s₃, hd₃, h⟩
  · rwa [hd₂, hd₁] at hfailed
  rcases bind_loadPart_error h with hfailed | ⟨_, s₄, hd₄, h⟩
  · rwa [hd₃, hd₂, hd₁] at hfailed
  rcases bind_loadPart_error h with hfailed | ⟨_, s₅, -, h⟩
  · rwa [hd₄, hd₃, hd₂, hd₁] at hfailed
  · cases h

/-! ### Pages -/

/-- The pages were written one after the other, each with the text that it had at that time. -/
inductive PagesWritten (tools : Toolchain) (config : SiteConfig) (fragments : Fragments)
    (place : Location) : List PageSource → Disk → Disk → Prop
  | nil (disk : Disk) : PagesWritten tools config fragments place [] disk disk
  | cons {page : PageSource} {pages : List PageSource} {text : String} {before middle after : Disk} :
      before.readText page.path = .ok text →
      WroteBelow place (page.key ++ ".html") (pageText tools config fragments page text)
        before middle →
      PagesWritten tools config fragments place pages middle after →
      PagesWritten tools config fragments place (page :: pages) before after

/-- The page is written right into the output directory. -/
def PageBelow (output : Path) (page : PageSource) : Prop :=
  page.outputPath = output.join (page.key ++ ".html") ∧ IsName (page.key ++ ".html")

theorem pageBelow_of (path output : Path) : PageBelow output (PageSource.of path output) := by
  refine And.intro ?_ (isName_pageFile path output)
  rw [PageSource.of]

variable {fragments : Fragments} {pages : List PageSource}

/-- Only the files of the pages changed. -/
theorem PagesWritten.changes (h : PagesWritten tools config fragments place pages before after) :
    before.Changes (fun _ => False)
      (fun location => ∃ page ∈ pages, location = (page.key ++ ".html") :: place) after := by
  induction h with
  | nil disk => exact .refl disk
  | @cons page pages text before middle after hread hwrote hmore ih =>
    refine (hwrote.changes.mono_files ?_).trans (ih.mono_files ?_)
    · rintro _ rfl
      exact ⟨page, List.mem_cons_self, rfl⟩
    · rintro _ ⟨other, hother, rfl⟩
      exact ⟨other, List.mem_cons_of_mem _ hother, rfl⟩

/-- **Last pages.** Of the pages with one key the last one stays in the output, as it was read when
    those before it had been written. -/
theorem PagesWritten.last {page : PageSource}
    (h : PagesWritten tools config fragments place pages before after) (hpage : page ∈ pages) :
    ∃ done last rest text middle, pages = done ++ last :: rest ∧ last.key = page.key ∧
      (∀ later ∈ rest, later.key ≠ page.key) ∧
      PagesWritten tools config fragments place done before middle ∧
      middle.readText last.path = .ok text ∧
      after.node? ((page.key ++ ".html") :: place) =
        some (.file (pageText tools config fragments last text).toUTF8) := by
  induction h generalizing page with
  | nil disk => cases hpage
  | @cons first pages text before middle after hread hwrote hmore ih =>
    -- By induction on the pages; a later page with the key replaces what this one wrote.
    by_cases hlater : ∃ later ∈ pages, later.key = page.key
    · obtain ⟨later, hmem, hkey⟩ := hlater
      obtain ⟨done, last, rest, found, start, rfl, hlast, hrest, hdone, hfound, hnode⟩ := ih hmem
      rw [hkey] at hlast hrest hnode
      exact ⟨first :: done, last, rest, found, start, rfl, hlast, hrest,
        .cons hread hwrote hdone, hfound, hnode⟩
    · -- No later page has the key, so the page is the first one, and stays.
      rcases List.mem_cons.mp hpage with rfl | hmem
      · refine ⟨[], page, pages, text, before, rfl, rfl, fun later hmem hkey =>
          hlater ⟨later, hmem, hkey⟩, .nil before, hread, ?_⟩
        rw [hmore.changes.node_eq id, hwrote.node]
        rintro ⟨later, hmem, heq⟩
        refine hlater ⟨later, hmem, ?_⟩
        exact (String.append_left_inj _).mp (List.cons.inj heq).1.symm
      · exact absurd ⟨page, hmem, rfl⟩ hlater

/-- One page that was built is read and then written. -/
theorem buildPage_ok {page : PageSource} (hready : OutputReady session.disk output place)
    (hpage : PageBelow output page) {value : Unit}
    (h : (buildPage tools config fragments page).run session = .ok value final) :
    ∃ text, session.disk.readText page.path = .ok text ∧
      WroteBelow place (page.key ++ ".html") (pageText tools config fragments page text)
        session.disk final.disk := by
  simp only [buildPage, Action.run_tell_bind] at h
  obtain ⟨text, _, hlook, hwrite⟩ := Action.run_bind_ok_iff.mp h
  obtain ⟨hread, rfl⟩ := Action.look_ok_iff.mp hlook
  rw [hpage.1] at hwrite
  have hwrote := writeOutput_ok hwrite hready hpage.2
  exact ⟨text, hread, hwrote⟩

/-- Why a page was not built: it cannot be read, or not be written. -/
def PageFailed (disk : Disk) (page : PageSource) (e : BuildError) : Prop :=
  (∃ cause, disk.readText page.path = .error cause ∧ e = .read .pages page.path cause) ∨
    ∃ cause, e = .write page.outputPath cause

/-- A page that was not built changed nothing. -/
theorem buildPage_error {page : PageSource} (hready : OutputReady session.disk output place)
    (hpage : PageBelow output page)
    (h : (buildPage tools config fragments page).run session = .error e final) :
    final.disk = session.disk ∧ PageFailed session.disk page e := by
  simp only [buildPage, Action.run_tell_bind] at h
  rcases Action.run_bind_error_iff.mp h with hlook | ⟨text, _, hlook, hwrite⟩
  · obtain ⟨cause, hread, rfl, rfl⟩ := Action.look_error_iff.mp hlook
    exact ⟨rfl, .inl ⟨cause, hread, rfl⟩⟩
  · obtain ⟨-, rfl⟩ := Action.look_ok_iff.mp hlook
    have hpath := hpage.1
    rw [hpath] at hwrite
    obtain ⟨rfl, cause, rfl⟩ := writeOutput_error hwrite hready hpage.2
    exact ⟨rfl, .inr ⟨cause, by rw [hpath]⟩⟩

/-- **Pages.** If the pages were built, they were written one after the other. -/
theorem buildPages_ok (hready : OutputReady session.disk output place)
    (hpages : ∀ page ∈ pages, PageBelow output page) {value : Unit}
    (h : (pages.forM (buildPage tools config fragments)).run session = .ok value final) :
    PagesWritten tools config fragments place pages session.disk final.disk := by
  induction pages generalizing session with
  | nil =>
    cases h
    exact .nil _
  | cons page pages ih =>
    obtain ⟨_, middle, hpage, h⟩ := Action.run_bind_ok_iff.mp h
    obtain ⟨text, hread, hwrote⟩ := buildPage_ok hready (hpages page List.mem_cons_self) hpage
    exact .cons hread hwrote (ih (hready.grows hwrote.changes.grows)
      (fun other hother => hpages other (List.mem_cons_of_mem _ hother)) h)

/-- **Failing pages.** If the pages were not built, those before the failing one were written, and
    nothing else. -/
theorem buildPages_error (hready : OutputReady session.disk output place)
    (hpages : ∀ page ∈ pages, PageBelow output page)
    (h : (pages.forM (buildPage tools config fragments)).run session = .error e final) :
    ∃ done page rest, pages = done ++ page :: rest ∧
      PagesWritten tools config fragments place done session.disk final.disk ∧
      PageFailed final.disk page e := by
  induction pages generalizing session with
  | nil => cases h
  | cons page pages ih =>
    rcases Action.run_bind_error_iff.mp h with h | ⟨_, middle, hpage, h⟩
    · obtain ⟨hdisk, hfailed⟩ := buildPage_error hready (hpages page List.mem_cons_self) h
      rw [← hdisk] at hfailed
      refine ⟨[], page, pages, rfl, ?_, hfailed⟩
      rw [hdisk]
      exact .nil _
    · -- The first page was written, and a later one failed.
      obtain ⟨text, hread, hwrote⟩ := buildPage_ok hready (hpages page List.mem_cons_self) hpage
      obtain ⟨done, failed, rest, rfl, hdone, hfailed⟩ := ih (hready.grows hwrote.changes.grows)
        (fun other hother => hpages other (List.mem_cons_of_mem _ hother)) h
      exact ⟨page :: done, failed, rest, rfl, .cons hread hwrote hdone, hfailed⟩

/-! ### Stylesheet and bundle -/

/-- The stylesheet was compiled and written. -/
def StylesheetWritten (tools : Toolchain) (layout : SiteLayout) (place : Location)
    (before after : Disk) : Prop :=
  ∃ text, tools.stylesheet before layout.stylesheet = .ok text ∧
    WroteBelow place "style.css" text before after

theorem buildStylesheet_ok (hready : OutputReady session.disk layout.output place) {value : Unit}
    (h : (buildStylesheet tools layout).run session = .ok value final) :
    StylesheetWritten tools layout place session.disk final.disk := by
  obtain ⟨text, _, hlook, hwrite⟩ := Action.run_bind_ok_iff.mp h
  obtain ⟨hcompile, rfl⟩ := Action.look_ok_iff.mp hlook
  exact ⟨text, hcompile, writeOutput_ok hwrite hready (by decide)⟩

/-- A stylesheet that was not written changed nothing. -/
theorem buildStylesheet_error (hready : OutputReady session.disk layout.output place)
    (h : (buildStylesheet tools layout).run session = .error e final) :
    final.disk = session.disk ∧
      ((∃ reason, tools.stylesheet session.disk layout.stylesheet = .error reason ∧
          e = .stylesheet layout.stylesheet reason) ∨
        ∃ cause, e = .write layout.outputStylesheet cause) := by
  rcases Action.run_bind_error_iff.mp h with hlook | ⟨text, _, hlook, hwrite⟩
  · obtain ⟨reason, hcompile, rfl, rfl⟩ := Action.look_error_iff.mp hlook
    exact ⟨rfl, .inl ⟨reason, hcompile, rfl⟩⟩
  · obtain ⟨-, rfl⟩ := Action.look_ok_iff.mp hlook
    obtain ⟨rfl, cause, rfl⟩ := writeOutput_error hwrite hready (by decide)
    exact ⟨rfl, .inr ⟨cause, rfl⟩⟩

/-- The scripts were read and written into one file. -/
def BundleWritten (tools : Toolchain) (layout : SiteLayout) (place : Location) (scripts : List Path)
    (before after : Disk) : Prop :=
  ∃ texts, before.scan tools.order layout.scriptsDir scriptFilter = .ok scripts ∧
    List.Forall₂ (fun path text => before.readText path = .ok text) scripts texts ∧
    WroteBelow place "bundle.js" (String.join (List.zipWith scriptChunk scripts texts)) before after

/-- Scripts that were loaded make up their chunks. -/
theorem loadScripts_ok {paths : List Path} {chunks : List String}
    (h : (paths.mapM loadScript).run session = .ok chunks final) :
    final.disk = session.disk ∧
      ∃ texts, List.Forall₂ (fun path text => session.disk.readText path = .ok text) paths texts ∧
        chunks = List.zipWith scriptChunk paths texts := by
  induction paths generalizing session chunks with
  | nil =>
    cases h
    exact ⟨rfl, [], .nil, rfl⟩
  | cons path paths ih =>
    obtain ⟨chunk, middle, more, hpath, hmore, rfl⟩ := Action.run_mapM_cons_ok_iff.mp h
    simp only [loadScript, Action.run_tell_bind] at hpath
    obtain ⟨text, _, hlook, hpath⟩ := Action.run_bind_ok_iff.mp hpath
    obtain ⟨hread, rfl⟩ := Action.look_ok_iff.mp hlook
    cases hpath
    obtain ⟨hdisk, texts, htexts, rfl⟩ := ih hmore
    exact ⟨hdisk, text :: texts, .cons hread htexts, rfl⟩

/-- If the scripts were not loaded, one of them cannot be read. -/
theorem loadScripts_error {paths : List Path}
    (h : (paths.mapM loadScript).run session = .error e final) :
    final.disk = session.disk ∧ ∃ path cause, e = .read .scripts path cause := by
  induction paths generalizing session with
  | nil => cases h
  | cons path paths ih =>
    rw [List.mapM_cons] at h
    rcases Action.run_bind_error_iff.mp h with h | ⟨chunk, middle, hpath, h⟩
    · simp only [loadScript, Action.run_tell_bind] at h
      rcases Action.run_bind_error_iff.mp h with hlook | ⟨text, _, -, h⟩
      · obtain ⟨cause, -, rfl, rfl⟩ := Action.look_error_iff.mp hlook
        exact ⟨rfl, path, cause, rfl⟩
      · cases h
    · simp only [loadScript, Action.run_tell_bind] at hpath
      obtain ⟨text, _, hlook, hpath⟩ := Action.run_bind_ok_iff.mp hpath
      obtain ⟨-, rfl⟩ := Action.look_ok_iff.mp hlook
      cases hpath
      rcases Action.run_bind_error_iff.mp h with h | ⟨_, _, -, h⟩
      · have hmore := ih h
        exact hmore
      · cases h

/-- **Bundle.** If the scripts were bundled, they were read in the order of the scan. -/
theorem bundleScripts_ok (hready : OutputReady session.disk layout.output place) {count : Nat}
    (h : (bundleScripts tools layout).run session = .ok count final) :
    ∃ scripts, BundleWritten tools layout place scripts session.disk final.disk ∧
      count = scripts.length := by
  obtain ⟨scripts, _, hlook, hrest⟩ := Action.run_bind_ok_iff.mp h
  obtain ⟨hscan, rfl⟩ := Action.look_ok_iff.mp hlook
  obtain ⟨chunks, middle, hload, hrest⟩ := Action.run_bind_ok_iff.mp hrest
  obtain ⟨hdisk, texts, htexts, rfl⟩ := loadScripts_ok hload
  -- Reading changed nothing, so what was found before the write is still so.
  rw [← hdisk] at hready hscan htexts ⊢
  obtain ⟨_, _, hwrite, hrest⟩ := Action.run_bind_ok_iff.mp hrest
  cases hrest
  exact ⟨scripts, ⟨texts, hscan, htexts, writeOutput_ok hwrite hready (by decide)⟩, rfl⟩

/-- A bundle that was not written changed nothing. -/
theorem bundleScripts_error (hready : OutputReady session.disk layout.output place)
    (h : (bundleScripts tools layout).run session = .error e final) :
    final.disk = session.disk ∧
      ((∃ cause, e = .scan .scripts cause) ∨ (∃ path cause, e = .read .scripts path cause) ∨
        ∃ cause, e = .write layout.outputBundle cause) := by
  rcases Action.run_bind_error_iff.mp h with hlook | ⟨scripts, _, hlook, hrest⟩
  · obtain ⟨cause, -, rfl, rfl⟩ := Action.look_error_iff.mp hlook
    exact ⟨rfl, .inl ⟨cause, rfl⟩⟩
  obtain ⟨-, rfl⟩ := Action.look_ok_iff.mp hlook
  rcases Action.run_bind_error_iff.mp hrest with hload | ⟨chunks, middle, hload, hrest⟩
  · obtain ⟨hdisk, hread⟩ := loadScripts_error hload
    exact ⟨hdisk, .inr (.inl hread)⟩
  have hdisk := (loadScripts_ok hload).1
  rw [← hdisk] at hready ⊢
  rcases Action.run_bind_error_iff.mp hrest with hwrite | ⟨_, _, -, hrest⟩
  · obtain ⟨rfl, cause, rfl⟩ := writeOutput_error hwrite hready (by decide)
    exact ⟨rfl, .inr (.inr ⟨cause, rfl⟩)⟩
  · cases hrest

/-! ### Assets -/

/-- Assets are copied if they are there. -/
theorem copyAssets_ok {count : Nat} (h : (copyAssets tools layout).run session = .ok count final) :
    (session.disk.isThere? layout.assetsDir = .ok true ∧
      (copyTree tools.order layout.assetsDir layout.outputAssets).run session =
        .ok count final) ∨
      (session.disk.isThere? layout.assetsDir = .ok false ∧ count = 0 ∧
        final.disk = session.disk) := by
  obtain ⟨isThere, _, hlook, hrest⟩ := Action.run_bind_ok_iff.mp h
  obtain ⟨hthere, rfl⟩ := Action.look_ok_iff.mp hlook
  cases isThere with
  | true => exact .inl ⟨hthere, Action.run_adapt_ok_iff.mp hrest⟩
  | false =>
    cases hrest
    exact .inr ⟨hthere, rfl, rfl⟩

/-- **Assets.** Assets of a tree that leads nowhere into the place of the copies are all copied, if
    they are there. -/
theorem copyAssets_copied (wf : session.disk.WellFormed)
    (hready : OutputReady session.disk layout.output place)
    (hout : StaysOut session.disk layout.assetsDir ("assets" :: place)) {count : Nat}
    (h : (copyAssets tools layout).run session = .ok count final) :
    ∃ assets, count = assets.length ∧
      ((session.disk.isThere layout.assetsDir = true ∧
          TreeCopied session.disk layout.assetsDir ("assets" :: place) final.disk assets) ∨
        (session.disk.isThere layout.assetsDir = false ∧ assets = [] ∧
          final.disk = session.disk)) := by
  rcases copyAssets_ok h with ⟨hthere, hcopy⟩ | ⟨hthere, rfl, hdisk⟩
  -- The copy starts at the root of the assets, with no names gone down yet.
  · have hroot := CopyReady.root wf hready.stands hready.noLinks (by decide : IsName "assets")
    obtain ⟨assets, hcopied, hcount⟩ := copyTree_ok hroot hout hcopy
    exact ⟨assets, hcount, .inl ⟨Disk.isThere_of_isThere? hthere, hcopied⟩⟩
  · exact ⟨[], rfl, .inr ⟨Disk.isThere_of_isThere? hthere, rfl, hdisk⟩⟩

/-- Assets that were not copied changed nothing but the directory of their copies. -/
theorem copyAssets_error (wf : session.disk.WellFormed)
    (hready : OutputReady session.disk layout.output place)
    (h : (copyAssets tools layout).run session = .error e final) :
    (∃ cause, e = .copy layout.assetsDir cause) ∧
      session.disk.Changes ("assets" :: place <:+ ·) ("assets" :: place <:+ ·) final.disk := by
  rcases Action.run_bind_error_iff.mp h with hlook | ⟨isThere, _, hlook, hrest⟩
  · obtain ⟨cause, -, rfl, rfl⟩ := Action.look_error_iff.mp hlook
    exact ⟨⟨_, rfl⟩, .refl _⟩
  obtain ⟨-, rfl⟩ := Action.look_ok_iff.mp hlook
  cases isThere with
  | true =>
    obtain ⟨cause, hcopy, rfl⟩ := Action.run_adapt_error_iff.mp hrest
    have hroot := CopyReady.root wf hready.stands hready.noLinks (by decide : IsName "assets")
    have hchanges := copyTree_changes tools.order layout.assetsDir hroot
    rw [SiteLayout.outputAssets] at hcopy
    rw [hcopy] at hchanges
    exact ⟨⟨cause, rfl⟩, hchanges⟩
  | false => cases hrest

end PageLoom
