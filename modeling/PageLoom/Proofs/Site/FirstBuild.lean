import PageLoom.Proofs.Site.FirstStages

namespace PageLoom

/-!
# The first build of a new site

Whatever name its configuration has, a site that was set up in an empty directory is built, and no
placeholder is left in its documents.

* `NewOutput.exists_document` — documents without braces;
* `Scaffolded.buildSite` — the whole build;
* `Scaffolded.load` — the configuration;
* `new_site_builds` — setting up a site, and then building it.
-/

variable {session : Session} {disk : Disk} {name : String} {tools : Toolchain} {config : SiteConfig}
  {fragments : Fragments} {page : PageSource} {pages : List PageSource}

/-! ### Documents -/

/-- Documents get no opening brace from what is put around their pages. -/
structure BraceFree (tools : Toolchain) (config : SiteConfig) (fragments : Fragments) : Prop where
  formatter : ∀ text, '{' ∈ (tools.formatter text).toList → '{' ∈ text.toList
  stamp : '{' ∉ tools.stamp.toList
  lang : '{' ∉ config.lang.toList
  parts : ∀ part, '{' ∉ (fragments.part part).toList

/-- **Documents.** No opening brace is in the documents of pages that were built. -/
theorem NewOutput.exists_document {before after : Disk} (h : NewOutput before)
    (hfree : BraceFree tools config fragments) (hpages : ∀ page ∈ pages, NewPage tools page)
    (hwritten : PagesWritten tools config fragments ("dest" :: before.home) pages before after)
    (hpage : page ∈ pages) :
    ∃ text : String, after.node? ((page.key ++ ".html") :: "dest" :: before.home) =
        some (.file text.toUTF8) ∧ '{' ∉ text.toList := by
  obtain ⟨done, last, rest, text, middle, rfl, -, -, hdone, hread, hnode⟩ := hwritten.last hpage
  have hlast := hpages last (List.mem_append_right _ List.mem_cons_self)
  obtain ⟨names, source, hentry, hpath, hcontent⟩ := hlast.source
  -- The pages before it have left the source tree as it was.
  have hmiddle : HoldsSource middle := by
    refine h.source.changes (by decide : "src" ≠ "dest") (hdone.changes.mono ?_ ?_)
    · exact fun _ => False.elim
    · rintro _ ⟨other, -, rfl⟩
      exact List.suffix_cons _ _
  obtain rfl : source = text := by
    rw [hmiddle.readText hentry hpath] at hread
    exact Except.ok.inj hread
  exact ⟨_, hnode, brace_not_mem_pageText hfree.formatter hfree.lang hfree.parts hlast.key hcontent
    hfree.stamp⟩

/-! ### The whole build -/

/-- The pages of a new site can be built, with Markdown as it is by default. -/
theorem newPage_of_mem (hmarkdown : tools.markdown = Markdown.toHtml) :
    ∀ path ∈ newPages, NewPage tools (.of path newOutput) := by
  have hindex : NewPage tools (.of ⟨"src/pages/index.html"⟩ newOutput) := by
    refine ⟨pageBelow_of _ _, by decide, by decide, ["pages", "index.html"], Scaffold.indexPage,
      by simp [sourceTree], by decide, ?_⟩
    exact Scaffold.brace_not_mem_indexPage
  have habout : NewPage tools (.of ⟨"src/pages/about.md"⟩ newOutput) := by
    refine ⟨pageBelow_of _ _, by decide, by decide, ["pages", "about.md"], Scaffold.aboutPage,
      by simp [sourceTree], by decide, ?_⟩
    show '{' ∉ (tools.markdown Scaffold.aboutPage).toList
    rw [hmarkdown]
    exact Scaffold.brace_not_mem_aboutPage
  simp only [newPages, List.forall_mem_cons]
  exact ⟨hindex, habout, by simp⟩

/-- In the output directory there are documents without opening braces under the keys. -/
def HoldsDocuments (disk : Disk) (keys : List String) : Prop :=
  ∀ key ∈ keys, ∃ text : String,
    disk.node? ((key ++ ".html") :: "dest" :: disk.home) = some (.file text.toUTF8) ∧
      '{' ∉ text.toList

/-- Documents stay where nothing else is written. -/
theorem HoldsDocuments.changes {before after : Disk} {keys : List String}
    {dirs files : Location → Prop} (h : HoldsDocuments before keys)
    (hchanges : before.Changes dirs files after)
    (hkept : ∀ key ∈ keys, ¬ dirs ((key ++ ".html") :: "dest" :: before.home) ∧
      ¬ files ((key ++ ".html") :: "dest" :: before.home)) : HoldsDocuments after keys := by
  intro key hkey
  obtain ⟨text, hnode, hfree⟩ := h key hkey
  obtain ⟨hdirs, hfiles⟩ := hkept key hkey
  rw [← hchanges.node_eq hdirs hfiles, ← hchanges.grows.home] at hnode
  exact ⟨text, hnode, hfree⟩

/-- The pages of a new site are built when they were found, and their documents are there. -/
theorem NewOutput.buildDocuments (h : NewOutput session.disk)
    (hfree : BraceFree tools config fragments) (hmarkdown : tools.markdown = Markdown.toHtml)
    {paths : List Path} (hperm : paths.Perm newPages) :
    ∃ after, ((paths.map (PageSource.of · newOutput)).forM
        (PageLoom.buildPage tools config fragments)).run session = .ok () after ∧
      NewOutput after.disk ∧ HoldsDocuments after.disk ["index", "about"] := by
  have hpages : ∀ page ∈ paths.map (PageSource.of · newOutput), NewPage tools page := by
    intro page hpage
    obtain ⟨path, hpath, rfl⟩ := List.mem_map.mp hpage
    exact newPage_of_mem hmarkdown path (hperm.mem_iff.mp hpath)
  obtain ⟨after, hrun, hafter, hhome⟩ := h.buildPages hpages
  have hwritten := buildPages_ok h.ready (fun page hpage => (hpages page hpage).below) hrun
  refine ⟨after, hrun, hafter, fun key hkey => ?_⟩
  -- Each key is that of a page that was found.
  obtain ⟨path, hpath, rfl⟩ : ∃ path ∈ newPages, (PageSource.of path newOutput).key = key := by
    revert key
    decide
  rw [hhome]
  exact h.exists_document hfree hpages hwritten
    (List.mem_map_of_mem (hperm.mem_iff.mpr hpath))

/-- **Building.** A new site is built: two pages, one script and one asset. No opening brace is in
    the documents. -/
theorem Scaffolded.buildSite (h : Scaffolded disk name) (hname : name ≠ "dest") (minify : Bool)
    (hfree : BraceFree tools (Scaffold.buildConfig minify) Scaffold.fragments)
    (hmarkdown : tools.markdown = Markdown.toHtml)
    (hcompile : AcceptsStylesheet tools.stylesheet) (log : List Event) :
    ∃ after, (buildSite tools (Scaffold.buildConfig minify)).run ⟨disk, log⟩ =
        .ok ⟨2, 1, 1, newOutput⟩ after ∧
      after.disk.WellFormed ∧ HoldsDocuments after.disk ["index", "about"] := by
  have hstart : Scaffolded (Session.mk disk log).disk name := h
  obtain ⟨made, hmake, hmade, -⟩ := hstart.makeOutput (BuildError.write newOutput) hname
  obtain ⟨paths, hscan, hperm⟩ := hmade.source.scan_pages tools.order
  obtain ⟨loaded, hload, hloaded⟩ := hmade.source.loadFragments minify
  have hready : NewOutput (loaded.told .processingPages).disk := by
    rw [← hloaded] at hmade
    exact hmade
  obtain ⟨written, hpages, hwritten, hdocuments⟩ :=
    hready.buildDocuments hfree hmarkdown hperm
  have hwritten : NewOutput (written.told .processingStylesheet).disk := hwritten
  obtain ⟨styled, hstyle, hstyled, hcss⟩ := hwritten.buildStylesheet hcompile
  have hstyled : NewOutput (styled.told .processingScripts).disk := hstyled
  obtain ⟨bundled, hbundle, hbundled, hjs⟩ := hstyled.bundleScripts
  have hbundled : NewOutput (bundled.told .processingAssets).disk := hbundled
  obtain ⟨after, hassets, hcopied⟩ := hbundled.copyAssets
  refine ⟨after, ?_, hcopied.wellFormed hbundled.source.wellFormed, ?_⟩
  · refine buildSite_ok_iff.mpr
      ⟨made, paths, Scaffold.fragments, loaded, written, styled, 1, bundled, 1, ?_⟩
    rw [Scaffold.layout_buildConfig, hperm.length_eq]
    exact ⟨hmake, hscan, hload, hpages, hstyle, hbundle, hassets, rfl⟩
  · -- None of the later stages writes in the place of a document.
    refine ((hdocuments.changes hcss ?_).changes hjs ?_).changes hcopied ?_
    · simp
    · simp
    · have hkeys : ∀ key ∈ ["index", "about"], key ++ ".html" ≠ "assets" := by decide
      intro key hkey
      exact ⟨Disk.not_below_sibling (hkeys key hkey), Disk.not_below_sibling (hkeys key hkey)⟩

/-! ### New sites build -/

/-- The configuration of a new site is loaded. -/
theorem Scaffolded.load (h : Scaffolded disk name) :
    SiteConfig.load disk ⟨name⟩ = .ok Scaffold.siteConfig := by
  have hnode := h.files _ List.mem_cons_self
  exact SiteConfig.load_of_ofText (h.spells.readBytes h.wellFormed hnode)
    (Scaffold.ofText_config _)

/-- The tools of a build with a stylesheet compiler of their own. -/
def Toolchain.compiling (order : ListingOrder) (stamp : String)
    (compile : BuildSettings → Disk → Path → Except String String) (settings : BuildSettings) :
    Toolchain :=
  { standard order stamp settings with stylesheet := compile settings }

/-- With such tools the documents of a new site get no opening brace from around their pages. -/
theorem braceFree_compiling {order : ListingOrder} {stamp : String}
    {compile : BuildSettings → Disk → Path → Except String String} {settings : BuildSettings}
    (hstamp : '{' ∉ stamp.toList) (minify : Bool) :
    BraceFree (.compiling order stamp compile settings) (Scaffold.buildConfig minify)
      Scaffold.fragments := by
  refine ⟨Toolchain.brace_mem_standard_formatter order stamp settings, hstamp, ?_, fun part => ?_⟩
  · show '{' ∉ Scaffold.siteConfig.lang.toList
    decide
  · cases part <;> exact Scaffold.brace_not_mem_fragment _

/-- The command succeeds if its configuration is loaded and the build does. -/
theorem runBuild_ok {toolsFor : BuildSettings → Toolchain} {configPath : Path}
    {overrides : BuildOverrides} {result : BuildResult} {log : List Event} {final : Session}
    (hthere : disk.isThere configPath = true)
    (hload : SiteConfig.load disk configPath = .ok config)
    (hbuild : (buildSite (toolsFor (config.override overrides).build)
      (config.override overrides)).run ⟨disk, log ++ [.building] ++ [.loadedConfig configPath]⟩ =
        .ok result final) :
    (runBuild toolsFor configPath overrides).run ⟨disk, log⟩ =
      .ok () ((final.told (.built result.pages result.scripts result.assets)).told
        (.outputIn result.output)) := by
  have hconfig := run_loadForBuild hthere hload (log ++ [.building])
  rw [runBuild, Action.run_tell_bind, Action.run_bind_of_ok hconfig,
    Action.run_bind_of_ok (Action.run_adapt_ok_iff.mpr hbuild)]
  rfl

/-- **New sites build.** Take any name for the configuration, but not that of the output directory.
    If setting up a site in an empty home succeeds, then the configuration is loaded, and it is the
    same one under every name. Then the site is built, with two pages, one script and one asset, and
    no placeholder is left in its documents: they hold no opening brace at all. The stylesheet
    compiler is only asked to accept the first stylesheet, and the time stamp to hold no brace. The
    name of the source directory need not be left out, because with it no site is set up. -/
theorem new_site_builds (wf : disk.WellFormed) (hdir : disk.node? disk.home = some .dir)
    (hempty : ∀ name, disk.node? (name :: disk.home) = none) (hname : IsName name)
    (hdest : name ≠ "dest") {overwrite : Bool} {log : List Event} {after : Session}
    (hinit : (runInit ⟨name⟩ overwrite).run ⟨disk, log⟩ = .ok () after) :
    SiteConfig.load after.disk ⟨name⟩ = .ok Scaffold.siteConfig ∧
      ∀ (order : ListingOrder) (stamp : String)
        (compile : BuildSettings → Disk → Path → Except String String) (minify : Bool),
        '{' ∉ stamp.toList →
        AcceptsStylesheet (compile (Scaffold.buildConfig minify).build) →
        ∃ told final, (runBuild (.compiling order stamp compile) ⟨name⟩ ⟨none, minify⟩).run after =
            .ok () final ∧
          final.log = told ++ [.built 2 1 1, .outputIn newOutput] ∧
          ∀ key ∈ ["index", "about"], ∃ text : String,
            final.disk.readText (newOutput.join (key ++ ".html")) = .ok text ∧
              '{' ∉ text.toList := by
  have hsite := scaffolded_of_init wf hdir hempty hname hinit
  refine ⟨hsite.load, fun order stamp compile minify hstamp hcompile => ?_⟩
  have hthere : after.disk.isThere ⟨name⟩ = true :=
    Disk.isThere_iff.mpr ⟨_, _, hsite.spells.status hsite.wellFormed
      (hsite.files _ List.mem_cons_self) (by simp)⟩
  obtain ⟨built, hbuild, wf', hdocuments⟩ := hsite.buildSite hdest minify
    (braceFree_compiling hstamp minify) rfl hcompile
    (after.log ++ [.building] ++ [.loadedConfig ⟨name⟩])
  refine ⟨built.log, _, runBuild_ok hthere hsite.load hbuild, by simp [Session.told], ?_⟩
  have hpaths : ∀ key ∈ ["index", "about"],
      (newOutput.join (key ++ ".html")).Spells ["dest", key ++ ".html"] := by decide
  intro key hkey
  obtain ⟨text, hnode, hfree⟩ := hdocuments key hkey
  exact ⟨text, Disk.readText_of_readBytes ((hpaths key hkey).readBytes wf' hnode), hfree⟩

/-- With the standard compiler a site is built whose configuration is named `a.b.JSON`. -/
theorem new_site_builds_json :
    ∃ after, (runInit ⟨"a.b.JSON"⟩ true).run ⟨.empty, []⟩ = .ok () after ∧
      SiteConfig.load after.disk ⟨"a.b.JSON"⟩ = .ok Scaffold.siteConfig ∧
      ∃ told final, (runBuild (.standard .stored "1700000000") ⟨"a.b.JSON"⟩ ⟨none, false⟩).run
          after = .ok () final ∧
        final.log = told ++ [.built 2 1 1, .outputIn newOutput] ∧
        ∀ key ∈ ["index", "about"], ∃ text : String,
          final.disk.readText (newOutput.join (key ++ ".html")) = .ok text ∧
            '{' ∉ text.toList := by
  have hinit : failure? ((runInit ⟨"a.b.JSON"⟩ true).run ⟨.empty, []⟩) = none := by decide +kernel
  obtain ⟨_, after, hrun⟩ := failure?_eq_none_iff.mp hinit
  have wf : Disk.empty.WellFormed :=
    ⟨by simp [Disk.empty], by simp [Disk.empty], by simp [Disk.empty]⟩
  obtain ⟨hload, hbuild⟩ := new_site_builds wf rfl (fun _ => rfl) (by decide) (by decide) hrun
  exact ⟨after, hrun, hload, hbuild .stored "1700000000"
    (fun settings => (Toolchain.standard .stored "1700000000" settings).stylesheet) false
    (by decide) (acceptsStylesheet_standard _ _ _)⟩

end PageLoom
