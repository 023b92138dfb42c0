import PageLoom.Proofs.Site.Stages
import PageLoom.Proofs.Site.Walk

namespace PageLoom

/-!
# What a build writes to

A build does not compare its source with its output. What it leaves alone is therefore told by
the paths that it writes to, wherever they lead: every file that none of them leads to keeps its
bytes, also in a build that fails.

* `OutputPath` — the paths that a build writes to;
* `Rewrites`, `RewritesFrom` — changes of a disk that write files only where these paths lead;
* `rewrites_copyWithin`, `rewrites_buildPage`, … — the steps of a build make such changes;
* `build_keeps_other_files` — so does the build;
* `OutputPath.leads_inside` — where these paths lead if the output holds no links;
* `build_empties_assets_in_place` — a site that is written into its own source.
-/

/-- The paths that a build writes to, between a disk before it and a later one: a page for every
    page that was found, the stylesheet, the bundle, and a copy of every file that the walk of the
    assets reaches, under the names on its way. -/
inductive OutputPath (tools : Toolchain) (layout : SiteLayout) (before after : Disk) : Path → Prop
  | page {paths : List Path} {path : Path} :
      (before.makeDirs layout.output).2.scan tools.order layout.pagesDir pageFilter = .ok paths →
      path ∈ paths →
      OutputPath tools layout before after
        (layout.output.join ((PageSource.of path layout.output).key ++ ".html"))
  | stylesheet : OutputPath tools layout before after (layout.output.join "style.css")
  | bundle : OutputPath tools layout before after (layout.output.join "bundle.js")
  | asset {names : List String} {above : List Ancestor} {origin : Location} {bytes : ByteArray} :
      Reached after layout.assetsDir names above origin (.file bytes) →
      OutputPath tools layout before after
        ((layout.output.join "assets").join (relativeText names))

/-- Between two disks files were written only where the paths lead that a build writes to.
    Directories may have been made anywhere. -/
def Rewrites (tools : Toolchain) (layout : SiteLayout) (before after : Disk) : Prop :=
  before.Changes (fun _ => True)
    (fun location => ∃ path, OutputPath tools layout before after path ∧
      before.PathLeads path location) after

/-- Such changes, of which the last ones were made to a disk from `start` on. -/
def RewritesFrom (tools : Toolchain) (layout : SiteLayout) (before start after : Disk) : Prop :=
  Rewrites tools layout before after ∧ start.Grows after

variable {tools : Toolchain} {layout : SiteLayout} {before start middle after : Disk} {path : Path}
  {names : List String} {above : List Ancestor} {origin : Location} {node : Node}

/-- What was copied once stays an output. -/
theorem OutputPath.grows (h : OutputPath tools layout before middle path)
    (hgrows : middle.Grows after) : OutputPath tools layout before after path := by
  cases h with
  | page hscan hmem => exact .page hscan hmem
  | stylesheet => exact .stylesheet
  | bundle => exact .bundle
  | asset hreached =>
    have hfile := hreached.pathLeads.2
    obtain ⟨node, hnode⟩ := hgrows.exists_node hfile
    obtain rfl | ⟨old, bytes, -, rfl⟩ := hgrows.node_cases hfile hnode
    · exact .asset (hreached.grows hgrows hnode)
    · exact .asset (hreached.grows hgrows hnode)

/-- A further change that writes files only where these paths lead. -/
theorem Rewrites.step {files : Location → Prop} (h : Rewrites tools layout before middle)
    (hstep : middle.Changes (fun _ => True) files after)
    (hfiles : ∀ location, files location → ∃ path, OutputPath tools layout before after path ∧
      middle.PathLeads path location) : RewritesFrom tools layout before middle after := by
  refine ⟨(Disk.Changes.mono_files h ?_).trans (hstep.mono_files ?_), hstep.grows⟩
  · rintro location ⟨path, hpath, hleads⟩
    exact ⟨path, hpath.grows hstep.grows, hleads⟩
  · intro location hfile
    obtain ⟨path, hpath, hleads⟩ := hfiles location hfile
    exact ⟨path, hpath, (h.grows.pathLeads_iff path).mp hleads⟩

/-- Directories may be made. -/
theorem Rewrites.makeDirs (h : Rewrites tools layout before middle) (path : Path) :
    RewritesFrom tools layout before middle (middle.makeDirs path).2 :=
  h.step ((middle.makeDirsUpTo_changes _ path).mono_dirs fun _ _ => trivial)
    fun _ hno => hno.elim

/-- A file may be written where one of the paths leads. -/
theorem Rewrites.write {bytes : ByteArray} (h : Rewrites tools layout before middle)
    (hpath : OutputPath tools layout before middle path)
    (hwrite : middle.write path bytes = .ok after) :
    RewritesFrom tools layout before middle after := by
  obtain ⟨location, hleads, hfits, rfl⟩ := Disk.write_ok hwrite
  have hstep := Disk.changes_put_file hfits bytes
  refine h.step (hstep.mono_dirs fun _ => False.elim) ?_
  rintro _ rfl
  exact ⟨path, hpath.grows hstep.grows, hleads⟩

/-- An asset that was reached may be copied. -/
theorem Rewrites.copyFile (h : Rewrites tools layout before middle)
    (hreached : Reached middle layout.assetsDir names above origin node)
    (hcopy : middle.copyFile (layout.assetsDir.joinAll names)
      (layout.outputAssets.join (relativeText names)) = .ok after) :
    RewritesFrom tools layout before middle after := by
  obtain ⟨found, location, old, bytes, hsource, hold, hleads, hfits, rfl, -⟩ :=
    Disk.copyFile_ok hcopy
  cases hreached.pathLeads.1.unique hsource
  cases Option.some.inj (hreached.pathLeads.2.symm.trans hold)
  have hstep := Disk.changes_put_file hfits bytes
  refine h.step (hstep.mono_dirs fun _ => False.elim) ?_
  rintro _ rfl
  have hasset : OutputPath tools layout before middle
      (layout.outputAssets.join (relativeText names)) := .asset hreached
  exact ⟨_, hasset.grows hstep.grows, hleads⟩

/-- What is changed from a later disk on is changed from an earlier one on. -/
theorem RewritesFrom.of_grows (h : RewritesFrom tools layout before middle after)
    (hgrows : start.Grows middle) : RewritesFrom tools layout before start after :=
  ⟨h.1, hgrows.trans h.2⟩

/-! ### The steps of a build -/

/-- Writing a file makes the directories that lead to it, and the file. -/
theorem rewrites_writeFile {ε : Type} {onError : IoError → ε} {text : String}
    (hpath : ∀ middle, OutputPath tools layout before middle path) :
    Action.Preserves (Rewrites tools layout before) (Action.writeFile onError path text) :=
  Action.preserves_writeFile (fun _ parent hinv _ => (hinv.makeDirs parent).1)
    fun middle _ hinv hwrite => (hinv.write (hpath middle) hwrite).1

/-- A page is written to its output path. -/
theorem rewrites_buildPage {config : SiteConfig} {fragments : Fragments} {page : PageSource}
    (hpage : ∀ middle, OutputPath tools layout before middle page.outputPath) :
    Action.Preserves (Rewrites tools layout before) (buildPage tools config fragments page) := by
  refine Action.preserves_bind (Action.preserves_tell _) fun _ _ middle _ _ hinv => ?_
  refine Action.preserves_bind (Action.preserves_look _ _) (fun _ _ middle _ _ hinv => ?_) middle hinv
  exact rewrites_writeFile hpage middle hinv

/-- The stylesheet is written to its output path. -/
theorem rewrites_buildStylesheet :
    Action.Preserves (Rewrites tools layout before) (buildStylesheet tools layout) := by
  refine Action.preserves_bind (Action.preserves_look _ _) fun _ _ middle _ _ hinv => ?_
  exact rewrites_writeFile (fun _ => .stylesheet) middle hinv

/-- The bundle is written to its output path. -/
theorem rewrites_bundleScripts :
    Action.Preserves (Rewrites tools layout before) (bundleScripts tools layout) := by
  refine Action.preserves_bind (Action.preserves_look _ _) fun _ paths middle _ _ hinv => ?_
  refine Action.preserves_bind (Action.preserves_mapM fun path _ => ?_)
    (fun _ _ middle _ _ hinv => ?_) middle hinv
  · refine Action.preserves_bind (Action.preserves_tell _) fun _ _ middle _ _ hinv => ?_
    exact Action.preserves_bind (Action.preserves_look _ _)
      (fun _ _ middle _ _ hinv => Action.preserves_pure _ middle hinv) middle hinv
  · exact Action.preserves_bind (rewrites_writeFile fun _ => .bundle)
      (fun _ _ middle _ _ hinv => Action.preserves_pure _ middle hinv) middle hinv

/-- An asset that was reached is copied to the path of its copy. -/
theorem rewrites_copyOne (hreached : Reached start layout.assetsDir names above origin node) :
    Action.Preserves (RewritesFrom tools layout before start)
      (copyOne (layout.assetsDir.joinAll names) (layout.outputAssets.join (relativeText names))
        (relativeText names)) := by
  have hcopy : Action.Preserves (RewritesFrom tools layout before start)
      (Action.change CopyError.write (·.copyFile (layout.assetsDir.joinAll names)
        (layout.outputAssets.join (relativeText names)))) := by
    refine Action.preserves_change fun middle _ hinv hcopy => ?_
    obtain ⟨now, hnow⟩ := hinv.2.exists_node hreached.pathLeads.2
    exact (hinv.1.copyFile (hreached.grows hinv.2 hnow) hcopy).of_grows hinv.2
  have hlast := Action.preserves_bind hcopy fun _ _ middle _ _ hinv =>
    Action.preserves_tell (.copied (relativeText names)) middle hinv
  rw [copyOne]
  split
  · exact Action.preserves_bind
      (Action.preserves_makeDirs fun _ hinv => (hinv.1.makeDirs _).of_grows hinv.2)
      fun _ _ middle _ _ hinv => hlast middle hinv
  · exact hlast

/-- **Copying.** A copy of the assets writes to the paths of the copies, level by level, if what is
    followed first was reached. -/
theorem rewrites_copyWithin (order : ListingOrder) (wf : before.WellFormed) (depth : Nat)
    (above : List Ancestor) (names : List String)
    (hfirst : ∀ disk, start.Grows disk → ∀ origin node,
      followEntry above (layout.assetsDir.joinAll names) disk = .ok (origin, node) →
        Reached disk layout.assetsDir names above origin node) :
    Action.Preserves (RewritesFrom tools layout before start)
      (copyWithin order layout.outputAssets depth above (layout.assetsDir.joinAll names)
        (relativeText names)) := by
  induction depth generalizing start above names with
  | zero => exact Action.preserves_throw _
  | succ depth ih =>
    rw [copyWithin]
    refine Action.preserves_bind (Action.preserves_look _ _) fun _ found here _ hlook hinv => ?_
    obtain ⟨hfollow, rfl⟩ := Action.look_ok_iff.mp hlook
    have hreached := hfirst _ hinv.2 found.1 found.2 hfollow
    -- What comes next is told from the disk on which that was reached.
    refine RewritesFrom.of_grows ?_ hinv.2
    have hhere : RewritesFrom tools layout before here.disk here.disk := ⟨hinv.1, .refl _⟩
    split
    · rename_i place
      refine Action.preserves_bind
        (Action.preserves_makeDirs fun _ hinv => (hinv.1.makeDirs _).of_grows hinv.2)
        (fun _ _ made _ _ hmade => ?_) here hhere
      refine Action.preserves_bind (Action.preserves_look _ _)
        (fun _ entries listed _ hlook hlisted => ?_) made hmade
      obtain ⟨hlist, rfl⟩ := Action.look_ok_iff.mp hlook
      have hdir := hreached.grows hlisted.2 (hlisted.2.dir hreached.pathLeads.2)
      refine RewritesFrom.of_grows ?_ hlisted.2
      refine Action.preserves_bind (Action.preserves_mapM fun entry hentry => ?_)
        (fun _ _ last _ _ hlast => Action.preserves_pure _ last hlast) listed
        ⟨hlisted.1, .refl _⟩
      have hmem : listed.disk.node? (entry.1 :: place) = some entry.2 := by
        obtain ⟨other, hstatus, rfl⟩ := Disk.list_ok_iff.mp hlist
        cases Except.ok.inj (hdir.status.symm.trans hstatus)
        exact (Disk.mem_children_iff (Disk.Changes.wellFormed hlisted.1 wf)).mp
          ((order.perm _ _).mem_iff.mp hentry)
      -- The names from the root of the copy grow by the name of the entry.
      rw [← Path.joinAll_concat, ← relativeText_concat]
      refine ih _ (names ++ [entry.1]) fun disk hgrows origin node hfollow => ?_
      obtain ⟨now, hnow⟩ := hgrows.exists_node hmem
      exact .entry (hdir.grows hgrows (hgrows.dir hdir.pathLeads.2)) hnow hfollow
    · exact Action.preserves_bind (rewrites_copyOne hreached)
        (fun _ _ last _ _ hlast => Action.preserves_pure _ last hlast) here hhere

/-- The assets are copied to the paths of the copies. -/
theorem rewrites_copyAssets (wf : before.WellFormed) :
    Action.Preserves (Rewrites tools layout before) (copyAssets tools layout) := by
  refine Action.preserves_bind (Action.preserves_look _ _) fun _ isThere middle _ _ hinv => ?_
  split
  · have hcopy : Action.Preserves (RewritesFrom tools layout before middle.disk)
        (copyTree tools.order layout.assetsDir layout.outputAssets) :=
      rewrites_copyWithin tools.order wf _ [] [] fun _ _ _ _ => .root
    exact (Action.preserves_adapt hcopy middle ⟨hinv, .refl _⟩).1
  · exact Action.preserves_bind (Action.preserves_tell _)
      (fun _ _ middle _ _ hinv => Action.preserves_pure _ middle hinv) middle hinv

/-- Pages that were found are written to their output paths. -/
theorem rewrites_pages {config : SiteConfig} {fragments : Fragments} {paths : List Path}
    (hscan : (before.makeDirs layout.output).2.scan tools.order layout.pagesDir pageFilter =
      .ok paths) :
    Action.Preserves (Rewrites tools layout before)
      ((paths.map (PageSource.of · layout.output)).forM (buildPage tools config fragments)) := by
  refine Action.preserves_forM fun page hpage => ?_
  obtain ⟨path, hpath, rfl⟩ := List.mem_map.mp hpage
  refine rewrites_buildPage fun _ => ?_
  rw [(pageBelow_of path layout.output).1]
  exact .page hscan hpath

/-- Loading the layout parts writes nothing. -/
theorem preserves_loadFragments {inv : Disk → Prop} (config : SiteConfig) :
    Action.Preserves inv (loadFragments config) := by
  have hpart : ∀ part, Action.Preserves inv (loadPart config part) := by
    intro part
    refine Action.preserves_bind (Action.preserves_look _ _) fun _ text middle _ _ hinv => ?_
    split
    · exact Action.preserves_pure _ middle hinv
    · refine Action.preserves_bind (Action.preserves_tell _)
        (fun _ _ middle _ _ hinv => ?_) middle hinv
      split
      · exact Action.preserves_pure _ middle hinv
      · exact Action.preserves_throw _ middle hinv
  refine Action.preserves_bind (hpart .head) fun _ _ middle _ _ hinv => ?_
  refine Action.preserves_bind (hpart .header) (fun _ _ middle _ _ hinv => ?_) middle hinv
  refine Action.preserves_bind (hpart .sidebar) (fun _ _ middle _ _ hinv => ?_) middle hinv
  refine Action.preserves_bind (hpart .footer) (fun _ _ middle _ _ hinv => ?_) middle hinv
  refine Action.preserves_bind (hpart .script) (fun _ _ middle _ _ hinv => ?_) middle hinv
  exact Action.preserves_pure _ middle hinv

/-! ### The build -/

/-- A build writes files only to its output paths. -/
theorem rewrites_buildSite (tools : Toolchain) (config : SiteConfig) {disk : Disk}
    (wf : disk.WellFormed) (log : List Event) :
    Rewrites tools config.layout disk (finalDisk ((buildSite tools config).run ⟨disk, log⟩)) := by
  have hready : Rewrites tools config.layout disk (disk.makeDirs config.layout.output).2 :=
    (Rewrites.makeDirs (.refl disk) _).1
  rw [buildSite]
  cases hdirs : (Action.makeDirs (.write config.layout.output) config.layout.output :
      Action BuildError Unit).run ⟨disk, log⟩ with
  | error e after =>
    obtain ⟨cause, -, -, rfl⟩ := Action.makeDirs_error_iff.mp hdirs
    rw [Action.run_bind_error_iff.mpr (.inl hdirs)]
    exact hready
  | ok value session =>
    obtain ⟨-, rfl⟩ := Action.makeDirs_ok_iff.mp hdirs
    rw [Action.run_bind_of_ok hdirs]
    cases hpages : (findPages tools config.layout).run
        ⟨(disk.makeDirs config.layout.output).2, log⟩ with
    | error e after =>
      obtain ⟨cause, -, -, rfl⟩ := findPages_error_iff.mp hpages
      rw [Action.run_bind_error_iff.mpr (.inl hpages)]
      exact hready
    | ok pages session =>
      obtain ⟨paths, hscan, rfl, rfl⟩ := findPages_ok_iff.mp hpages
      rw [Action.run_bind_of_ok hpages]
      -- From here on every step is one that rewrites outputs only.
      refine Action.preserves_bind (preserves_loadFragments config)
        (fun _ fragments middle _ _ hinv => ?_) _ hready
      refine Action.preserves_bind (Action.preserves_tell _)
        (fun _ _ middle _ _ hinv => ?_) middle hinv
      refine Action.preserves_bind (rewrites_pages hscan)
        (fun _ _ middle _ _ hinv => ?_) middle hinv
      refine Action.preserves_bind (Action.preserves_tell _)
        (fun _ _ middle _ _ hinv => ?_) middle hinv
      refine Action.preserves_bind rewrites_buildStylesheet
        (fun _ _ middle _ _ hinv => ?_) middle hinv
      refine Action.preserves_bind (Action.preserves_tell _)
        (fun _ _ middle _ _ hinv => ?_) middle hinv
      refine Action.preserves_bind rewrites_bundleScripts
        (fun _ _ middle _ _ hinv => ?_) middle hinv
      refine Action.preserves_bind (Action.preserves_tell _)
        (fun _ _ middle _ _ hinv => ?_) middle hinv
      refine Action.preserves_bind (rewrites_copyAssets wf)
        (fun _ _ middle _ _ hinv => ?_) middle hinv
      exact Action.preserves_pure _ middle hinv

/-- **Other files.** A build, whether or not it succeeds, keeps the bytes of every file that none
    of its output paths leads to. -/
theorem build_keeps_other_files (tools : Toolchain) (config : SiteConfig) {disk : Disk}
    (wf : disk.WellFormed) (log : List Event) {location : Location} {bytes : ByteArray}
    (hfile : disk.node? location = some (.file bytes))
    (hother : ∀ path, OutputPath tools config.layout disk
      (finalDisk ((buildSite tools config).run ⟨disk, log⟩)) path →
        ¬ disk.PathLeads path location) :
    (finalDisk ((buildSite tools config).run ⟨disk, log⟩)).node? location =
      some (.file bytes) := by
  rcases (rewrites_buildSite tools config wf log).node location with hsame | ⟨-, hnone, -⟩ |
    ⟨⟨path, hpath, hleads⟩, -⟩
  · exact hsame.trans hfile
  · rw [hfile] at hnone
    cases hnone
  · exact absurd hleads (hother path hpath)

/-- **Inside.** If there are no links below the output directory, which stands at `place`, then the
    output paths lead right into it, or to copies of the assets further down. -/
theorem OutputPath.leads_inside (h : OutputPath tools layout before after path)
    (wf : after.WellFormed) {place location : Location}
    (hplace : before.PathLeads layout.output place) (hno : before.NoLinksBelow place)
    (hleads : before.PathLeads path location) :
    (∃ name, location = name :: place) ∨ "assets" :: place <:+ location := by
  have hinto : ∀ {name target}, IsName name → before.PathLeads (layout.output.join name) target →
      target = name :: place := fun hname htarget =>
    (Disk.pathLeads_join_iff hname hplace fun link => hno _ place link List.suffix_rfl).mp htarget
  cases h with
  | page hscan hmem => exact .inl ⟨_, hinto (pageBelow_of _ layout.output).2 hleads⟩
  | stylesheet => exact .inl ⟨_, hinto (by decide) hleads⟩
  | bundle => exact .inl ⟨_, hinto (by decide) hleads⟩
  | asset hreached =>
    have hnames := hreached.isName wf
    rw [Path.join_relativeText _ hnames, Disk.pathLeads_joinAll hnames] at hleads
    obtain ⟨target, htarget, hdown⟩ := hleads
    cases hinto (by decide) ((Disk.pathLeads_of_trims (Path.trims_join_empty _)).mpr htarget)
    rw [hdown.eq_of_noLinks (hno.cons "assets")]
    exact .inr (List.suffix_append _ _)

/-! ### A small site -/

/-- Tools that take everything as it is. -/
def plainTools : Toolchain where
  order := .stored
  stylesheet _ _ := .ok ""
  markdown text := text
  formatter text := text
  stamp := ""

/-- A configuration that says no more than where a site in `src` is written to. -/
def plainConfig (output : Path) : SiteConfig :=
  { SiteConfig.blank with build := ⟨⟨"src"⟩, output, ⟨"style.css"⟩, false, false⟩ }

/-- A disk with a site that has one page, empty layout parts and one asset. -/
def smallSite : Disk where
  home := []
  nodes :=
    [(["src"], .dir), (["pages", "src"], .dir), (["index.html", "pages", "src"], .file "x".toUTF8),
      (["parts", "src"], .dir), (["assets", "src"], .dir),
      (["logo", "assets", "src"], .file "x".toUTF8)] ++
    Part.all.flatMap fun part =>
      [([part.name, "parts", "src"], .dir),
        ([part.name ++ ".html", part.name, "parts", "src"], .file .empty)]

theorem smallSite_wellFormed : smallSite.WellFormed := by
  refine ⟨?_, ?_, ?_⟩ <;> decide +kernel

theorem smallSite_noLinks (location : Location) : smallSite.NoLinksBelow location :=
  Disk.noLinksBelow_of_nodes (by simp [smallSite, Part.all]) location

/-- The page of the small site is kept even if the site is written into its own source, for nothing
    that is written leads to it. -/
theorem build_keeps_other_files_page :
    smallSite.node? ["index.html", "pages", "src"] = some (.file "x".toUTF8) ∧
      (finalDisk ((buildSite plainTools (plainConfig ⟨"src"⟩)).run ⟨smallSite, []⟩)).node?
        ["index.html", "pages", "src"] = some (.file "x".toUTF8) := by
  have hfile : smallSite.node? ["index.html", "pages", "src"] = some (.file "x".toUTF8) := by
    decide +kernel
  have hplace : smallSite.PathLeads ⟨"src"⟩ ["src"] :=
    Disk.leads_down fun path => smallSite_noLinks [] "src" [] path List.suffix_rfl
  have wf := Disk.Changes.wellFormed
    (rewrites_buildSite plainTools (plainConfig ⟨"src"⟩) smallSite_wellFormed [])
    smallSite_wellFormed
  refine ⟨hfile, build_keeps_other_files plainTools (plainConfig ⟨"src"⟩) smallSite_wellFormed []
    hfile fun path hpath hleads => ?_⟩
  obtain ⟨name, hinto⟩ | hbelow := hpath.leads_inside wf hplace (smallSite_noLinks _) hleads
  · simp at hinto
  · exact absurd hbelow (by decide)

/-- **Lost assets.** A site that is written into its own source loses its assets: each is copied
    onto itself, which empties it first. -/
theorem build_empties_assets_in_place :
    let asset := (plainConfig ⟨"src"⟩).layout.assetsDir.join "logo"
    let after := finalDisk ((buildSite plainTools (plainConfig ⟨"src"⟩)).run ⟨smallSite, []⟩)
    smallSite.readBytes asset = .ok "x".toUTF8 ∧ after.readBytes asset = .ok .empty ∧
      "x".toUTF8 ≠ .empty := by
  refine ⟨?_, ?_, ?_⟩ <;> decide +kernel

end PageLoom
