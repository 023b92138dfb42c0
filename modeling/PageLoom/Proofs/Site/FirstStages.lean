import PageLoom.Proofs.Site.Confined
import PageLoom.Proofs.Site.Order
import PageLoom.Proofs.Site.ScaffoldText
import PageLoom.Proofs.Site.SourceTree

namespace PageLoom

/-!
# The stages of a first build

In a new site each stage of a build succeeds. It finds the source tree as it was set up, and the
output directory with files only.

* `HoldsSource.loadFragments` — the layout parts are loaded;
* `NewOutput.buildPages` — pages are built;
* `NewOutput.buildStylesheet`, `NewOutput.bundleScripts` — so are stylesheet and bundle;
* `NewOutput.copyAssets` — the assets are copied.
-/

variable {session : Session} {disk : Disk}

/-! ### Layout parts -/

/-- The configuration that a new site is built by. -/
def Scaffold.buildConfig (minify : Bool) : SiteConfig :=
  siteConfig.override ⟨none, minify⟩

/-- Its layout is that of a new site. -/
theorem Scaffold.layout_buildConfig (minify : Bool) : (buildConfig minify).layout = newLayout := by
  cases minify <;> decide

/-- A part is loaded if its file can be read and the symbols of its directives are short enough. -/
theorem loadPart_of_readText {config : SiteConfig} {part : Part} {raw : String}
    (hread : session.disk.readText (config.layout.partFile part) = .ok raw)
    (hfits : ∀ directive ∈ (config.directives? part).getD [],
      symbolFits directive.symbol.toList = true) :
    ∃ after, (loadPart config part).run session =
        .ok (String.ofList (spliceAll ((config.directives? part).getD []) raw.toList)) after ∧
      after.disk = session.disk := by
  have hlook : (Action.look (BuildError.read .fragments (config.layout.partFile part))
      (·.readText (config.layout.partFile part))).run session = .ok raw session :=
    Action.look_ok_iff.mpr ⟨hread, rfl⟩
  rw [loadPart, Action.run_bind_of_ok hlook]
  cases hdirectives : config.directives? part with
  | none => exact ⟨session, by simp [spliceAll], rfl⟩
  | some directives =>
    rw [hdirectives, Option.getD_some] at hfits
    simp only [Action.run_tell_bind, applyDirectives_eq hfits, Option.getD_some]
    exact ⟨_, rfl, rfl⟩

/-- The texts of the layout parts are in the source tree. -/
theorem part_mem_sourceTree (part : Part) :
    (["parts", part.name, part.name ++ ".html"], Scaffold.partText part) ∈ sourceTree := by
  cases part <;> simp [sourceTree, Part.name, Scaffold.partText]

/-- The symbols of a new site are short enough. -/
theorem symbolFits_of_siteConfig (part : Part) :
    ∀ directive ∈ (Scaffold.siteConfig.directives? part).getD [],
      symbolFits directive.symbol.toList = true := by
  cases part <;> decide

/-- A layout part of a new site is loaded. -/
theorem HoldsSource.loadPart (h : HoldsSource session.disk) (minify : Bool) (part : Part) :
    ∃ after, (loadPart (Scaffold.buildConfig minify) part).run session =
        .ok (Scaffold.fragment part) after ∧ after.disk = session.disk := by
  have hpath : (newLayout.partFile part).Spells
      ["src", "parts", part.name, part.name ++ ".html"] := by
    cases part <;> decide
  have hread := h.readText (part_mem_sourceTree part) hpath
  rw [← Scaffold.layout_buildConfig minify] at hread
  exact loadPart_of_readText hread (symbolFits_of_siteConfig part)

/-- All layout parts of a new site are loaded. -/
theorem HoldsSource.loadFragments (h : HoldsSource session.disk) (minify : Bool) :
    ∃ after, (loadFragments (Scaffold.buildConfig minify)).run session =
        .ok Scaffold.fragments after ∧ after.disk = session.disk := by
  have hpart : ∀ (part : Part) (start : Session), start.disk = session.disk →
      ∃ after, (PageLoom.loadPart (Scaffold.buildConfig minify) part).run start =
          .ok (Scaffold.fragment part) after ∧ after.disk = session.disk := by
    intro part start hstart
    rw [← hstart] at h ⊢
    exact h.loadPart minify part
  obtain ⟨s₁, hhead, hd₁⟩ := hpart .head session rfl
  obtain ⟨s₂, hheader, hd₂⟩ := hpart .header s₁ hd₁
  obtain ⟨s₃, hsidebar, hd₃⟩ := hpart .sidebar s₂ hd₂
  obtain ⟨s₄, hfooter, hd₄⟩ := hpart .footer s₃ hd₃
  obtain ⟨s₅, hscript, hd₅⟩ := hpart .script s₄ hd₄
  refine ⟨s₅, ?_, hd₅⟩
  rw [PageLoom.loadFragments, Action.run_bind_of_ok hhead, Action.run_bind_of_ok hheader,
    Action.run_bind_of_ok hsidebar, Action.run_bind_of_ok hfooter, Action.run_bind_of_ok hscript]
  rfl

/-! ### Documents -/

/-- A page of the source tree that is written into the output directory under its key. Neither its
    key nor its content holds an opening brace. -/
structure NewPage (tools : Toolchain) (page : PageSource) : Prop where
  below : PageBelow newOutput page
  spells : page.outputPath.Spells ["dest", page.key ++ ".html"]
  key : '{' ∉ page.key.toList
  source : ∃ names text, (names, text) ∈ sourceTree ∧ page.path.Spells ("src" :: names) ∧
    '{' ∉ (pageContent tools page.kind text).toList

variable {tools : Toolchain} {config : SiteConfig} {fragments : Fragments} {page : PageSource}
  {pages : List PageSource}

/-- A page is built. -/
theorem NewOutput.buildPage (h : NewOutput session.disk) (hpage : NewPage tools page) :
    ∃ after, (buildPage tools config fragments page).run session = .ok () after ∧
      NewOutput after.disk ∧ after.disk.home = session.disk.home := by
  obtain ⟨names, text, hentry, hpath, -⟩ := hpage.source
  have hread := h.source.readText hentry hpath
  have hspells := hpage.spells
  rw [hpage.below.1] at hspells
  -- A key that ends in an extension is not that of the assets.
  have hassets : page.key ++ ".html" ≠ "assets" := by
    intro hsame
    have hdot : '.' ∈ (page.key ++ ".html").toList := by simp
    rw [hsame] at hdot
    exact absurd hdot (by decide)
  obtain ⟨after, hwrite, hafter⟩ : ∃ after, (Action.writeFile (BuildError.write page.outputPath)
      page.outputPath (pageText tools config fragments page text)).run
        (session.told (.processingPage page.path)) = .ok () after ∧
      NewOutput after.disk ∧ after.disk.home = session.disk.home := by
    rw [hpage.below.1]
    have htold : NewOutput (session.told (.processingPage page.path)).disk := h
    obtain ⟨after, hwrite, hafter, hchanges⟩ := htold.write _ _ hpage.below.2 hspells hassets
    exact ⟨after, hwrite, hafter, hchanges.grows.home⟩
  refine ⟨after, ?_, hafter⟩
  simp only [PageLoom.buildPage, Action.run_tell_bind]
  exact Action.run_bind_ok_iff.mpr ⟨text, _, Action.look_ok_iff.mpr ⟨hread, rfl⟩, hwrite⟩

/-- Pages are built, one after the other. -/
theorem NewOutput.buildPages (h : NewOutput session.disk)
    (hpages : ∀ page ∈ pages, NewPage tools page) :
    ∃ after, (pages.forM (PageLoom.buildPage tools config fragments)).run session = .ok () after ∧
      NewOutput after.disk ∧ after.disk.home = session.disk.home := by
  induction pages generalizing session with
  | nil => exact ⟨session, rfl, h, rfl⟩
  | cons page pages ih =>
    obtain ⟨hpage, hpages⟩ := List.forall_mem_cons.mp hpages
    obtain ⟨middle, hfirst, hmiddle, hhome⟩ := h.buildPage hpage
    obtain ⟨after, hmore, hafter, hhome'⟩ := ih hmiddle hpages
    exact ⟨after, Action.run_bind_ok_iff.mpr ⟨(), middle, hfirst, hmore⟩, hafter,
      hhome'.trans hhome⟩

/-! ### Stylesheet, scripts and assets -/

/-- The compiler accepts the first stylesheet wherever it can be read. -/
def AcceptsStylesheet (compile : Disk → Path → Except String String) : Prop :=
  ∀ disk : Disk, disk.readText newLayout.stylesheet = .ok Scaffold.stylesheet →
    ∃ text, compile disk newLayout.stylesheet = .ok text

/-- The standard compiler does. -/
theorem acceptsStylesheet_standard (order : ListingOrder) (stamp : String)
    (settings : BuildSettings) :
    AcceptsStylesheet (Toolchain.standard order stamp settings).stylesheet := by
  intro disk hread
  obtain ⟨sheet, hsheet, himports⟩ := Scaffold.read_stylesheet
  have hmembers := Style.loadMembers_of_noImports hread hsheet himports
  simp only [Toolchain.standard, Style.compileStylesheet, hmembers]
  exact ⟨_, rfl⟩

/-- The stylesheet is written if the compiler accepts it. -/
theorem NewOutput.buildStylesheet (h : NewOutput session.disk)
    (hcompile : AcceptsStylesheet tools.stylesheet) :
    ∃ after, (buildStylesheet tools newLayout).run session = .ok () after ∧
      NewOutput after.disk ∧ session.disk.Changes (fun _ => False)
        (· = "style.css" :: "dest" :: session.disk.home) after.disk := by
  have hread : session.disk.readText newLayout.stylesheet = .ok Scaffold.stylesheet := by
    have hpath : newLayout.stylesheet.Spells ["src", "style", "style.css"] := by decide
    exact h.source.readText (by simp [sourceTree]) hpath
  obtain ⟨text, htext⟩ := hcompile session.disk hread
  obtain ⟨after, hwrite, hafter⟩ := h.write (BuildError.write newLayout.outputStylesheet) text
    (by decide : IsName "style.css") (by decide) (by decide)
  refine ⟨after, ?_, hafter⟩
  exact Action.run_bind_ok_iff.mpr ⟨text, session, Action.look_ok_iff.mpr ⟨htext, rfl⟩, hwrite⟩

/-- The script is bundled. -/
theorem NewOutput.bundleScripts (h : NewOutput session.disk) :
    ∃ after, (bundleScripts tools newLayout).run session = .ok 1 after ∧
      NewOutput after.disk ∧ session.disk.Changes (fun _ => False)
        (· = "bundle.js" :: "dest" :: session.disk.home) after.disk := by
  have hdir : newLayout.scriptsDir.Spells ["src", "parts", "script"] := by decide
  obtain ⟨paths, hscan, hperm⟩ := (h.source.holdsJust scripts_flat).scan h.source.wellFormed
    (h.source.status scripts_flat hdir) tools.order scriptFilter
  -- Of the files in the directory only one is a script.
  obtain rfl : paths = [⟨"src/parts/script/main.js"⟩] := List.perm_singleton.mp hperm
  have hread : session.disk.readText ⟨"src/parts/script/main.js"⟩ = .ok Scaffold.script := by
    have hpath : (⟨"src/parts/script/main.js"⟩ : Path).Spells
        ["src", "parts", "script", "main.js"] := by
      decide
    exact h.source.readText (by simp [sourceTree]) hpath
  have hpieces : List.Forall₂ (IsPiece session.disk) [⟨"src/parts/script/main.js"⟩]
      [(⟨"src/parts/script/main.js"⟩, Scaffold.script)] := .cons ⟨rfl, hread⟩ .nil
  obtain ⟨loaded, hload, hdisk⟩ := loadScripts_of_pieces hpieces
  rw [← hdisk] at h ⊢
  obtain ⟨after, hwrite, hafter⟩ := h.write (BuildError.write newLayout.outputBundle) _
    (by decide : IsName "bundle.js") (by decide) (by decide)
  refine ⟨after, ?_, hafter⟩
  rw [PageLoom.bundleScripts]
  refine (Action.run_bind_of_ok (Action.look_ok_iff.mpr ⟨hscan, rfl⟩)).trans ?_
  refine (Action.run_bind_of_ok hload).trans ?_
  exact Action.run_bind_of_ok hwrite

section Copies

variable {order : ListingOrder} {target path : Path} {depth : Nat} {above : List Ancestor}
  {relative : String} {location : Location} {after : Session}

/-- A file is copied. -/
theorem copyWithin_of_file {bytes : ByteArray}
    (hfollow : followEntry above path session.disk = .ok (location, .file bytes))
    (hcopy : (copyOne path (target.join relative) relative).run session = .ok () after) :
    (copyWithin order target (depth + 1) above path relative).run session = .ok 1 after := by
  rw [copyWithin]
  refine (Action.run_bind_of_ok (Action.look_ok_iff.mpr ⟨hfollow, rfl⟩)).trans ?_
  exact Action.run_bind_of_ok hcopy

/-- A directory is copied if it can be made and its entries are copied. -/
theorem copyWithin_of_dir {made : Session} {entries : List (String × Node)} {counts : List Nat}
    (hfollow : followEntry above path session.disk = .ok (location, .dir))
    (hmake : (Action.makeDirs CopyError.write (target.join relative)).run session = .ok () made)
    (hlist : made.disk.list path = .ok entries)
    (hcopy : ((order.arrange path entries).mapM fun entry =>
      copyWithin order target depth (⟨location, path⟩ :: above) (path.join entry.1)
        (entryBelow relative entry.1)).run made = .ok counts after) :
    (copyWithin order target (depth + 1) above path relative).run session =
      .ok (counts.foldr (· + ·) 0) after := by
  rw [copyWithin]
  refine (Action.run_bind_of_ok (Action.look_ok_iff.mpr ⟨hfollow, rfl⟩)).trans ?_
  refine (Action.run_bind_of_ok hmake).trans ?_
  refine (Action.run_bind_of_ok (Action.look_ok_iff.mpr ⟨hlist, rfl⟩)).trans ?_
  exact Action.run_bind_of_ok hcopy

/-- An entry that is no link stands for itself. -/
theorem followEntry_of_linkStatus {node : Node} (h : disk.linkStatus path = .ok (location, node))
    (hother : ∀ target, node ≠ .link target) :
    followEntry above path disk = .ok (location, node) := by
  rw [followEntry, h]
  cases node with
  | dir => rfl
  | file bytes => rfl
  | link target => exact absurd rfl (hother target)

end Copies

/-- The directory of the copied assets is made. -/
theorem NewOutput.makeAssets (h : NewOutput session.disk) :
    ∃ made, (Action.makeDirs CopyError.write (newLayout.outputAssets.join "")).run session =
        .ok () made ∧ HoldsSource made.disk ∧ made.disk.home = session.disk.home ∧
      made.disk.node? ("assets" :: "dest" :: made.disk.home) = some .dir ∧
      ∀ name, made.disk.node? (name :: "assets" :: "dest" :: made.disk.home) = none := by
  have hfree : session.disk.node? ("assets" :: "dest" :: session.disk.home) = none := by
    cases hnode : session.disk.node? ("assets" :: "dest" :: session.disk.home) with
    | none => rfl
    | some node => exact absurd rfl (h.flat _ node hnode).1
  have hentry : session.disk.IsEntry (newLayout.outputAssets.join "") ("dest" :: session.disk.home)
      "assets" :=
    Path.isEntry_join_slash (by decide) h.stands h.dir fun target =>
      h.ready.noLinks _ _ target List.suffix_rfl
  obtain ⟨made, hmake, hchanges, hdir, hnone⟩ :=
    makeDirs_new h.source.wellFormed hentry (by decide) (by decide) hfree
  have hhome := hchanges.grows.home
  rw [← hhome] at hdir hnone
  refine ⟨made, hmake, h.source.changes (by decide : "src" ≠ "dest") (hchanges.mono ?_ ?_), hhome,
    hdir, hnone⟩
  · rintro _ rfl
    exact List.suffix_cons _ _
  · exact fun _ => False.elim

/-- The asset is copied into the directory that was made. -/
theorem HoldsSource.copyAsset (h : HoldsSource session.disk) (order : ListingOrder) (depth : Nat)
    (above : List Ancestor)
    (hdir : session.disk.node? ("assets" :: "dest" :: session.disk.home) = some .dir)
    (hnone : session.disk.node? ("robots.txt" :: "assets" :: "dest" :: session.disk.home) = none) :
    ∃ after, (copyWithin order newLayout.outputAssets (depth + 1) above
      (newLayout.assetsDir.join "robots.txt") "robots.txt").run session = .ok 1 after := by
  have hname : IsName "robots.txt" := by decide
  have hpath : (newLayout.assetsDir.join "robots.txt").Spells ["src", "assets", "robots.txt"] := by
    decide
  have hnode := h.files (["assets", "robots.txt"], Scaffold.robots) (by simp [sourceTree])
  have hstatus := hpath.status h.wellFormed hnode (by simp)
  have htarget : newLayout.outputAssets.Spells ["dest", "assets"] := by decide
  have hstands := htarget.standsAt h.wellFormed hdir
  have hno : ∀ target, session.disk.node?
      ("robots.txt" :: "assets" :: "dest" :: session.disk.home) ≠ some (.link target) := by
    intro target hlink
    rw [hnone] at hlink
    cases hlink
  have hentry := Path.isEntry_join hname hstands hdir hno
  obtain ⟨changed, hcopy⟩ : ∃ changed, session.disk.copyFile (newLayout.assetsDir.join "robots.txt")
      (newLayout.outputAssets.join "robots.txt") = .ok changed := by
    refine ⟨_, (hentry.copyFile_ok_iff ?_).mpr ⟨_, _, hstatus, hentry.write_ok_iff.mpr ⟨?_, rfl⟩⟩⟩
    · -- The asset is in the source directory, its copy in the output directory.
      intro origin node hfound
      rw [hstatus] at hfound
      cases hfound
      simp
    · exact ⟨Path.endsInSlash_join _ hname, by decide, by decide, .inl hnone⟩
  have hready : CopyReady session.disk newLayout.outputAssets
      ("assets" :: "dest" :: session.disk.home) ["robots.txt"] := by
    refine ⟨h.wellFormed, (h.noLinks.cons _).cons _, by simpa using hname, ?_, ?_⟩
    · exact ⟨newLayout.outputAssets, _, by decide, hstands⟩
    · exact (Disk.pathLeads_join_iff hname hstands.pathLeads hno).mpr rfl
  obtain ⟨after, hone, -⟩ := copyOne_of_copyFile hready hcopy
  exact ⟨after, copyWithin_of_file
    (followEntry_of_linkStatus (hpath.linkStatus h.wellFormed hnode (by simp)) (by simp)) hone⟩

/-- **Assets.** The assets of a new site are copied. -/
theorem NewOutput.copyAssets (h : NewOutput session.disk) :
    ∃ after, (copyAssets tools newLayout).run session = .ok 1 after ∧
      session.disk.Changes ("assets" :: "dest" :: session.disk.home <:+ ·)
        ("assets" :: "dest" :: session.disk.home <:+ ·) after.disk := by
  have hsource : newLayout.assetsDir.Spells ["src", "assets"] := by decide
  have hroot : CopyReady session.disk newLayout.outputAssets
      ("assets" :: "dest" :: session.disk.home) [] :=
    .root h.source.wellFormed h.stands h.ready.noLinks (by decide)
  have hfollow : followEntry [] newLayout.assetsDir session.disk =
      .ok (["src", "assets"].reverse ++ session.disk.home, .dir) :=
    followEntry_of_linkStatus
      (hsource.linkStatus h.source.wellFormed (h.source.dir assets_flat) (by simp)) (by simp)
  obtain ⟨made, hmake, hmade, hhome, hdir, hnone⟩ := h.makeAssets
  have hlist := Disk.list_ok_iff.mpr ⟨_, hmade.status assets_flat hsource, rfl⟩
  have hentries := List.perm_singleton.mp ((tools.order.perm newLayout.assetsDir _).trans
    ((hmade.holdsJust assets_flat).children_perm hmade.wellFormed))
  obtain ⟨after, hasset⟩ := hmade.copyAsset tools.order 4095
    [⟨["src", "assets"].reverse ++ session.disk.home, newLayout.assetsDir⟩] hdir (hnone _)
  have hcopy : (copyTree tools.order newLayout.assetsDir newLayout.outputAssets).run session =
      .ok ([1].foldr (· + ·) 0) after := by
    refine copyWithin_of_dir hfollow hmake hlist ?_
    rw [hentries]
    exact Action.run_mapM_cons_ok_iff.mpr ⟨1, after, [], hasset, rfl, rfl⟩
  have hchanges := copyTree_changes tools.order newLayout.assetsDir hroot
  rw [hcopy] at hchanges
  have hthere : session.disk.isThere? newLayout.assetsDir = .ok true := by
    rw [Disk.isThere?, h.source.status assets_flat hsource]
  refine ⟨after, ?_, hchanges⟩
  rw [PageLoom.copyAssets]
  refine (Action.run_bind_of_ok (Action.look_ok_iff.mpr ⟨hthere, rfl⟩)).trans ?_
  exact Action.run_adapt_ok_iff.mpr hcopy

end PageLoom
