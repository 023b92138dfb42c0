import PageLoom.Proofs.Site.Failure
import PageLoom.Proofs.Site.Result
import PageLoom.Proofs.Site.Stripped

namespace PageLoom

/-!
# Builds stay in their output

Whatever the files of a site are called, and wherever links in its source lead, a build writes only
into its output directory, if there are no links in that one. Above it directories are made, and
nothing else.

* `ConfinedDirs`, `ConfinedFiles` — where a build may make directories and write files;
* `FailureLeaves.confined`, `buildSite_confined` — every build stays there, also one that fails;
* `Confined` — what that means for the paths of pages and copies, too;
* `build_confined` — the command that builds a site stays in its output.
-/

/-- Where a build may make directories: where the output path and the paths above it lead, and
    where copies of assets stand. -/
def ConfinedDirs (layout : SiteLayout) (before : Disk) (location : Location) : Prop :=
  before.Upwards layout.output location ∨
    ∃ place, before.PathLeads layout.output place ∧ "assets" :: place <:+ location

/-- Where a build may write files: right in the output directory a page, whose key holds neither dot
    nor slash, the stylesheet and the bundle, and further down the copies of assets. -/
def ConfinedFiles (layout : SiteLayout) (before : Disk) (location : Location) : Prop :=
  ∃ place, before.PathLeads layout.output place ∧
    ((∃ key : String, '.' ∉ key.toList ∧ '/' ∉ key.toList ∧
        location = (key ++ ".html") :: place) ∨
      location = "style.css" :: place ∨ location = "bundle.js" :: place ∨
      "assets" :: place <:+ location)

variable {tools : Toolchain} {config : SiteConfig} {before disk after : Disk} {place : Location}
  {fragments : Fragments} {pages done rest : List PageSource} {scripts : List Path}

/-! ### The stages -/

/-- The output directory is made with what leads to it. -/
theorem readyDisk_confined (layout : SiteLayout) (before : Disk) :
    before.Changes (ConfinedDirs layout before) (ConfinedFiles layout before)
      (readyDisk layout before) :=
  (changes_readyDisk layout before).mono (fun _ => .inl) fun _ => False.elim

/-- Pages are written right into the output directory. -/
theorem PagesDone.confined (h : PagesDone tools config before place fragments done rest disk) :
    before.Changes (ConfinedDirs config.layout before) (ConfinedFiles config.layout before)
      disk := by
  obtain ⟨paths, -, hpaths⟩ := h.found
  refine (readyDisk_confined config.layout before).trans
    ((h.written.changes_pageFiles hpaths).mono (fun _ => False.elim) ?_)
  rintro _ ⟨path, -, rfl⟩
  exact ⟨place, h.leads, .inl ⟨_, dot_not_mem_key path _, slash_not_mem_key path _, rfl⟩⟩

/-- So is the stylesheet. -/
theorem StylesheetDone.confined
    (h : StylesheetDone tools config before place fragments pages disk) :
    before.PathLeads config.layout.output place ∧
      before.Changes (ConfinedDirs config.layout before) (ConfinedFiles config.layout before)
        disk := by
  obtain ⟨compiled, hpages, _, -, hwrote⟩ := h
  refine ⟨hpages.leads, hpages.confined.trans (hwrote.changes.mono (fun _ => False.elim) ?_)⟩
  rintro _ rfl
  exact ⟨place, hpages.leads, .inr (.inl rfl)⟩

/-- So is the bundle. -/
theorem BundleDone.confined
    (h : BundleDone tools config before place fragments pages scripts disk) :
    before.PathLeads config.layout.output place ∧
      before.Changes (ConfinedDirs config.layout before) (ConfinedFiles config.layout before)
        disk := by
  obtain ⟨styled, hstyled, _, -, -, hwrote⟩ := h
  obtain ⟨hleads, hchanges⟩ := hstyled.confined
  refine ⟨hleads, hchanges.trans (hwrote.changes.mono (fun _ => False.elim) ?_)⟩
  rintro _ rfl
  exact ⟨place, hleads, .inr (.inr (.inl rfl))⟩

/-- What is changed among the copies of the assets is in the output. -/
theorem confined_of_copies {layout : SiteLayout} (hleads : before.PathLeads layout.output place)
    (hbefore : before.Changes (ConfinedDirs layout before) (ConfinedFiles layout before) disk)
    (hcopies : disk.Changes ("assets" :: place <:+ ·) ("assets" :: place <:+ ·) after) :
    before.Changes (ConfinedDirs layout before) (ConfinedFiles layout before) after :=
  hbefore.trans (hcopies.mono (fun _ hbelow => .inr ⟨place, hleads, hbelow⟩)
    fun _ hbelow => ⟨place, hleads, .inr (.inr (.inr hbelow))⟩)

/-- **Failures.** What a build that failed left is in its output. -/
theorem FailureLeaves.confined {e : BuildError} (h : FailureLeaves tools config before after e) :
    before.Changes (ConfinedDirs config.layout before) (ConfinedFiles config.layout before)
      after := by
  have hready := readyDisk_confined config.layout before
  cases e with
  | scan kind cause =>
    cases kind with
    | pages => exact h ▸ hready
    | fragments => exact h.elim
    | scripts =>
      obtain ⟨place, fragments, pages, hstyled⟩ := h
      exact hstyled.confined.2
  | read kind path cause =>
    cases kind with
    | pages =>
      obtain ⟨place, fragments, done, page, rest, hdone, -⟩ := h
      exact hdone.confined
    | fragments => exact h ▸ hready
    | scripts =>
      obtain ⟨place, fragments, pages, hstyled⟩ := h
      exact hstyled.confined.2
  | pattern part cause => exact h ▸ hready
  | stylesheet path reason =>
    obtain ⟨place, fragments, pages, hdone, -⟩ := h
    exact hdone.confined
  | copy path cause =>
    obtain ⟨place, fragments, pages, scripts, bundled, hbundle, hcopies⟩ := h
    exact confined_of_copies hbundle.confined.1 hbundle.confined.2 hcopies
  | write path cause =>
    obtain ⟨-, rfl⟩ | ⟨place, fragments, done, page, rest, hdone, -⟩ |
      ⟨place, fragments, pages, hdone, -⟩ | ⟨place, fragments, pages, hstyled, -⟩ := h
    · exact hready
    · exact hdone.confined
    · exact hdone.confined
    · exact hstyled.confined.2

/-- **Builds.** A build stays in its output, whether or not it succeeds. -/
theorem buildSite_confined (tools : Toolchain) (config : SiteConfig) (wf : before.WellFormed)
    (hlinks : ∀ place, before.PathLeads config.layout.output place → before.NoLinksBelow place)
    (log : List Event) :
    before.Changes (ConfinedDirs config.layout before) (ConfinedFiles config.layout before)
      (finalDisk ((buildSite tools config).run ⟨before, log⟩)) := by
  have hends := buildSite_ends tools config wf hlinks log
  cases hrun : (buildSite tools config).run ⟨before, log⟩ with
  | error e after =>
    rw [hrun] at hends
    exact hends.confined
  | ok result after =>
    rw [hrun] at hends
    obtain ⟨place, fragments, pages, scripts, bundled, hready, hbundle, hcopy, -⟩ := hends
    obtain ⟨hleads, hchanges⟩ := hbundle.confined
    obtain ⟨-, hcopy⟩ | ⟨-, -, hsame⟩ := copyAssets_ok hcopy
    · have hroot := CopyReady.root (hchanges.wellFormed wf) (hready.grows hbundle.grows).stands
        (hready.grows hbundle.grows).noLinks (by decide : IsName "assets")
      have hcopies := copyTree_changes tools.order config.layout.assetsDir hroot
      rw [SiteLayout.outputAssets] at hcopy
      rw [hcopy] at hcopies
      exact confined_of_copies hleads hchanges hcopies
    · rw [finalDisk, hsame]
      exact hchanges

/-! ### Paths -/

/-- Names lead straight down where there are no links. -/
theorem Disk.leads_of_noLinks {location : Location} (hno : disk.NoLinksBelow location)
    (names : List String) : disk.Leads location (names.map .down) (names.reverse ++ location) := by
  induction names generalizing location with
  | nil => exact .here _
  | cons name names ih =>
    rw [List.map_cons, List.reverse_cons, List.append_assoc]
    exact .down (fun path hlink => hno name location path List.suffix_rfl hlink)
      (ih (hno.cons name))

/-- What a build writes stays in its output: all changes on the disk do, the result of each page
    is a file right in the output directory, under a key that holds neither dot nor slash, and
    every asset has its place below the copies of the assets, which is found by taking the path of
    the assets off its own. -/
structure Confined (layout : SiteLayout) (before after : Disk) : Prop where
  changes : before.Changes (ConfinedDirs layout before) (ConfinedFiles layout before) after
  pages : ∀ path, ∃ key : String, '.' ∉ key.toList ∧ '/' ∉ key.toList ∧
    (PageSource.of path layout.output).outputPath = layout.output.join (key ++ ".html") ∧
    ∀ place, before.PathLeads layout.output place →
      before.PathLeads (PageSource.of path layout.output).outputPath ((key ++ ".html") :: place)
  targets : ∀ names : List String, (∀ name ∈ names, IsName name) →
    ∃ relative, (layout.assetsDir.joinAll names).behind? layout.assetsDir = some relative ∧
      ∀ place, before.PathLeads layout.output place →
        before.PathLeads (layout.outputAssets.join relative.text)
          (names.reverse ++ "assets" :: place)
  copies : ∀ (order : ListingOrder) (session : Session), session.disk.WellFormed →
    (copyStripped order layout.assetsDir layout.outputAssets (pathLimit + 1) []
      layout.assetsDir).run session =
      (copyTree order layout.assetsDir layout.outputAssets).run session

/-- A build that changes nothing but its output is confined to it. -/
theorem confined_of_changes {layout : SiteLayout}
    (hlinks : ∀ place, before.PathLeads layout.output place → before.NoLinksBelow place)
    (hchanges : before.Changes (ConfinedDirs layout before) (ConfinedFiles layout before) after) :
    Confined layout before after := by
  refine ⟨hchanges, fun path => ?_, fun names hnames => ?_,
    fun order session wf => copyStripped_run order _ _ wf⟩
  · obtain ⟨hpath, hname⟩ := pageBelow_of path layout.output
    refine ⟨_, dot_not_mem_key path layout.output, slash_not_mem_key path layout.output, hpath,
      fun place hleads => ?_⟩
    rw [hpath]
    exact (Disk.pathLeads_join_iff hname hleads
      fun target => hlinks place hleads _ place target List.suffix_rfl).mpr rfl
  · refine ⟨_, layout.assetsDir.behind?_joinAll hnames, fun place hleads => ?_⟩
    have hassets : IsName "assets" := by decide
    rw [Path.join_relativeText _ hnames, Disk.pathLeads_joinAll hnames]
    refine ⟨"assets" :: place, ?_,
      Disk.leads_of_noLinks ((hlinks place hleads).cons "assets") names⟩
    refine (Disk.pathLeads_of_trims (Path.trims_join_empty _)).mp ?_
    exact (Disk.pathLeads_join_iff hassets hleads
      fun target => hlinks place hleads _ place target List.suffix_rfl).mpr rfl

/-! ### The command -/

/-- A configuration that can be loaded is loaded for the build. -/
theorem run_loadForBuild {configPath : Path} (hthere : disk.isThere configPath = true)
    (hload : SiteConfig.load disk configPath = .ok config) (log : List Event) :
    (loadForBuild configPath).run ⟨disk, log⟩ =
      .ok config ⟨disk, log ++ [.loadedConfig configPath]⟩ := by
  have hlook : (Action.look .config (SiteConfig.load · configPath) :
      Action CommandError SiteConfig).run ⟨disk, log⟩ = .ok config ⟨disk, log⟩ :=
    Action.look_ok_iff.mpr ⟨hload, rfl⟩
  rw [loadForBuild, Action.run_bind_of_ok Action.run_get]
  simp only [hthere, Bool.not_true, Bool.false_eq_true, if_false]
  rw [Action.run_bind_of_ok hlook]
  rfl

/-- With a configuration the command leaves what the build leaves. -/
theorem finalDisk_runBuild (tools : BuildSettings → Toolchain) {configPath : Path}
    (overrides : BuildOverrides) (hthere : disk.isThere configPath = true)
    (hload : SiteConfig.load disk configPath = .ok config) (log : List Event) :
    ∃ told, finalDisk ((runBuild tools configPath overrides).run ⟨disk, log⟩) =
      finalDisk ((buildSite (tools (config.override overrides).build)
        (config.override overrides)).run ⟨disk, told⟩) := by
  have hconfig := run_loadForBuild hthere hload (log ++ [.building])
  refine ⟨log ++ [.building] ++ [.loadedConfig configPath], ?_⟩
  rw [runBuild, Action.run_tell_bind, Action.run_bind_of_ok hconfig]
  generalize log ++ [.building] ++ [.loadedConfig configPath] = told
  cases hbuild : (buildSite (tools (config.override overrides).build)
      (config.override overrides)).run ⟨disk, told⟩ with
  | error e after =>
    rw [Action.run_bind_error_iff.mpr (.inl (Action.run_adapt_error_iff.mpr ⟨e, hbuild, rfl⟩))]
    rfl
  | ok result after =>
    rw [Action.run_bind_of_ok (Action.run_adapt_ok_iff.mpr hbuild)]
    rfl

/-- **Confined.** For every configuration and every output directory from the command line, in a
    tree without links below that directory, the command that builds a site stays in it, whether
    it succeeds or fails. Nothing is removed, and without a configuration nothing changes. -/
theorem build_confined (tools : BuildSettings → Toolchain) (configPath : Path)
    (overrides : BuildOverrides) {disk : Disk} (wf : disk.WellFormed)
    (hlinks : ∀ config, SiteConfig.load disk configPath = .ok config → ∀ place,
      disk.PathLeads (config.override overrides).layout.output place → disk.NoLinksBelow place)
    (log : List Event) :
    (Unconfigured disk configPath ∧
        finalDisk ((runBuild tools configPath overrides).run ⟨disk, log⟩) = disk) ∨
      ∃ config, SiteConfig.load disk configPath = .ok config ∧
        Confined (config.override overrides).layout disk
          (finalDisk ((runBuild tools configPath overrides).run ⟨disk, log⟩)) := by
  by_cases hconfigured : Unconfigured disk configPath
  · obtain ⟨e, after, hrun, hsame⟩ := runBuild_unconfigured tools overrides hconfigured log
    rw [hrun]
    exact .inl ⟨hconfigured, hsame⟩
  simp only [Unconfigured, not_or, Bool.not_eq_false, not_exists] at hconfigured
  obtain ⟨hthere, hloads⟩ := hconfigured
  cases hload : SiteConfig.load disk configPath with
  | error cause => exact absurd hload (hloads cause)
  | ok config =>
    obtain ⟨told, hfinal⟩ := finalDisk_runBuild tools overrides hthere hload log
    rw [hfinal]
    exact .inr ⟨config, rfl, confined_of_changes (hlinks config hload)
      (buildSite_confined _ _ wf (hlinks config hload) told)⟩

/-- A site with odd names: a page with nothing before its first dot, one with blanks and two more
    dots, one that is a link out of the source, and assets of which one has many dots, one stands in
    a directory called `...`, and one is found through a link. -/
def oddSite : Disk where
  home := []
  nodes :=
    [(["site.json"], .file "\x7b\"general\":\x7b\"lang\":\"\"\x7d\x7d".toUTF8),
      (["other"], .dir), (["deep", "other"], .file "x".toUTF8), (["src"], .dir),
      (["pages", "src"], .dir), ([".html", "pages", "src"], .file "x".toUTF8),
      (["a b.md..c", "pages", "src"], .file "x".toUTF8),
      (["up.txt", "pages", "src"], .link ⟨"../../site.json"⟩), (["assets", "src"], .dir),
      ([".a b..c", "assets", "src"], .file "x".toUTF8), (["...", "assets", "src"], .dir),
      (["x", "...", "assets", "src"], .file "x".toUTF8),
      (["out", "assets", "src"], .link ⟨"../../other"⟩), (["parts", "src"], .dir)] ++
    Part.all.flatMap fun part =>
      [([part.name, "parts", "src"], .dir),
        ([part.name ++ ".html", part.name, "parts", "src"], .file .empty)]

theorem oddSite_wellFormed : oddSite.WellFormed := by
  refine ⟨?_, ?_, ?_⟩ <;> decide +kernel

/-- Below the output directory of the site with odd names there are no links. -/
theorem oddSite_noLinks {place : Location} (h : oddSite.PathLeads ⟨"dest"⟩ place) :
    oddSite.NoLinksBelow place := by
  have hdest : oddSite.PathLeads ⟨"dest"⟩ ["dest"] :=
    Disk.leads_down fun path hlink => by cases hlink
  cases h.unique hdest
  intro name up path hup hlink
  have hmem := Disk.mem_nodes_of_node? (List.cons_ne_nil name up) hlink
  have hsource : ∀ entry ∈ oddSite.nodes, entry.1.getLast? ≠ some "dest" := by decide +kernel
  obtain ⟨front, rfl⟩ := hup
  have hlast : (name :: front ++ ["dest"]).getLast? = some "dest" := List.getLast?_concat
  exact hsource _ hmem hlast

/-- Files that the site becomes. -/
def oddFiles : List Location :=
  [[".html", "dest"], ["a b.html", "dest"], ["up.html", "dest"], ["style.css", "dest"],
    ["bundle.js", "dest"], [".a b..c", "assets", "dest"], ["x", "...", "assets", "dest"],
    ["deep", "out", "assets", "dest"]]

/-- The command builds the site with odd names, with all of these files, and stays in its output. -/
theorem build_confined_odd :
    ∃ config after, SiteConfig.load oddSite ⟨"site.json"⟩ = .ok config ∧
      (runBuild (fun _ => plainTools) ⟨"site.json"⟩ ⟨some ⟨"dest"⟩, false⟩).run ⟨oddSite, []⟩ =
        .ok () after ∧
      (∀ location ∈ oddFiles, (after.disk.node? location).isSome) ∧
      Confined (config.override ⟨some ⟨"dest"⟩, false⟩).layout oddSite after.disk := by
  have hfiles : (match (runBuild (fun _ => plainTools) ⟨"site.json"⟩ ⟨some ⟨"dest"⟩, false⟩).run
      ⟨oddSite, []⟩ with
    | .ok _ after => decide (∀ location ∈ oddFiles, (after.disk.node? location).isSome)
    | .error _ _ => false) = true := by decide +kernel
  have hconfined := build_confined (fun _ => plainTools) ⟨"site.json"⟩ ⟨some ⟨"dest"⟩, false⟩
    oddSite_wellFormed (fun config _ place hleads => oddSite_noLinks hleads) []
  cases hrun : (runBuild (fun _ => plainTools) ⟨"site.json"⟩ ⟨some ⟨"dest"⟩, false⟩).run
      ⟨oddSite, []⟩ with
  | error e after =>
    rw [hrun] at hfiles
    cases hfiles
  | ok value after =>
    rw [hrun] at hfiles hconfined
    obtain ⟨-, hsame⟩ | ⟨config, hload, hchanges⟩ := hconfined
    · -- a command that did nothing left no files
      have hnone : oddSite.node? [".html", "dest"] = none := by decide +kernel
      have hpage := of_decide_eq_true hfiles [".html", "dest"] (by simp [oddFiles])
      rw [← hsame, finalDisk] at hnone
      simp [hnone] at hpage
    · exact ⟨config, after, hload, rfl, of_decide_eq_true hfiles, hchanges⟩

end PageLoom
