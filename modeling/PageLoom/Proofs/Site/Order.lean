import PageLoom.Proofs.Site.Outputs
import PageLoom.Proofs.Site.Progress
import PageLoom.Proofs.Site.ReorderCopy

namespace PageLoom

/-!
# Builds in another listing order

What a build makes does not depend on the order in which directories are listed, if the source is
separate from the output and no two pages have the same key. Only the chunks of the bundle come in
the order in which the scripts are found.

* `DistinctKeys` — no two pages are written to the same file;
* `SameSite` — two disks that hold the same site, but for the order of the chunks;
* `build_again` — a build that succeeds in one order succeeds in another one;
* `build_order_independent` — so both builds succeed, with the same result, or none of them does.
-/

/-- No two page files have the same key. -/
def DistinctKeys (disk : Disk) (layout : SiteLayout) : Prop :=
  ∀ start path other, disk.PathLeads layout.pagesDir start →
    disk.FoundBelow pageFilter layout.pagesDir start path →
    disk.FoundBelow pageFilter layout.pagesDir start other →
    (PageSource.of path layout.output).key = (PageSource.of other layout.output).key → path = other

/-- Two disks hold the same, but the bundle of one may be a permutation of the chunks of the other
    one. The chunks are those of the scripts that are found once the output directory was made. -/
def SameSite (order : ListingOrder) (layout : SiteLayout) (before disk other : Disk) : Prop :=
  ∃ place, before.PathLeads layout.output place ∧
    Disk.AgreeOn (· ≠ "bundle.js" :: place) disk other ∧
    SameChunks order layout (readyDisk layout before) place disk other

variable {tools : Toolchain} {config : SiteConfig} {before : Disk} {place : Location}
  {log : List Event} {result : BuildResult} {after : Session}

/-- Pages have different keys if those have that a scan finds. -/
theorem distinctKeys_of_scan {order : ListingOrder} {layout : SiteLayout} {paths : List Path}
    (wf : before.WellFormed) (hscan : before.scan order layout.pagesDir pageFilter = .ok paths)
    (hnodup : (paths.map fun path => (PageSource.of path layout.output).key).Nodup) :
    DistinctKeys before layout := by
  intro start path other hstart hpath hother hkey
  obtain ⟨-, hmem⟩ := Disk.scanWithin_ok wf hstart hscan
  exact List.inj_on_of_nodup_map hnodup ((hmem path).mpr hpath) ((hmem other).mpr hother) hkey

/-- The output directory of a build that succeeds stands, and the source passes it by. -/
theorem outputMade_of_build (wf : before.WellFormed)
    (hseparate : Separate before config.layout.source config.layout.output)
    (hrun : (buildSite tools config).run ⟨before, log⟩ = .ok result after) :
    ∃ place, before.PathLeads config.layout.output place ∧
      OutputMade (readyDisk config.layout before) config.layout place := by
  have hends := buildSite_ends tools config wf hseparate.noLinks log
  rw [hrun] at hends
  obtain ⟨place, fragments, pages, scripts, bundled, hready, ⟨styled, ⟨compiled, hpages, css,
    hcompile, hcss⟩, -⟩, -⟩ := hends
  have hmade := before.makeDirsUpTo_changes config.layout.output.text.length config.layout.output
  have wf' : (readyDisk config.layout before).WellFormed := hmade.wellFormed wf
  -- The stylesheet was written there, so it is a directory.
  have hdir := hpages.written.changes.keeps_back.dir (hcss.dir (hpages.written.changes.wellFormed wf'))
  exact ⟨place, hpages.leads, wf', hready, hdir,
    (hseparate.passesBy place hpages.leads).grows hmade.grows⟩

/-- The pages of different files that were found have different keys. -/
theorem nodup_keys {order : ListingOrder} {paths : List Path} (wf : before.WellFormed)
    (hkeys : DistinctKeys before config.layout)
    (hscan : (readyDisk config.layout before).scan order config.layout.pagesDir pageFilter =
      .ok paths) :
    ((paths.map (PageSource.of · config.layout.output)).map (·.key)).Nodup := by
  have hmade := before.makeDirsUpTo_changes config.layout.output.text.length config.layout.output
  have hfound := scanned_of_ready wf hmade hscan
  rw [List.map_map]
  refine List.Nodup.map_on (fun path hpath other hother hkey => ?_) hfound.nodup
  obtain ⟨start, hstart, hpath⟩ := (hfound.mem_iff path).mp hpath
  obtain ⟨start', hstart', hother⟩ := (hfound.mem_iff other).mp hother
  cases hstart.unique hstart'
  exact hkeys start path other hstart hpath hother hkey

/-- Bundles that are kept have the same chunks after. -/
theorem SameChunks.kept {order : ListingOrder} {layout : SiteLayout}
    {ready disk other disk' other' : Disk} {on : Location → Prop}
    (h : SameChunks order layout ready place disk other)
    (hkept : Disk.AgreeOn on disk disk') (hkept' : Disk.AgreeOn on other other')
    (hon : on ("bundle.js" :: place)) : SameChunks order layout ready place disk' other' := by
  obtain ⟨found, pieces, pieces', hfound, hpieces, htexts, hsame, hfile, hfile'⟩ := h
  rw [← hkept.node _ hon] at hfile
  rw [← hkept'.node _ hon] at hfile'
  exact ⟨found, pieces, pieces', hfound, hpieces, htexts, hsame, hfile, hfile'⟩

/-- A session in which one more event was told. -/
def Session.told (session : Session) (event : Event) : Session :=
  { session with log := session.log ++ [event] }

/-- A build succeeds if its stages do, one after the other. -/
theorem buildSite_ok_iff {session : Session} :
    (buildSite tools config).run session = .ok result after ↔
      ∃ made paths fragments loaded written styled scripts bundled assets,
        (Action.makeDirs (BuildError.write config.layout.output) config.layout.output).run session =
          .ok () made ∧
        made.disk.scan tools.order config.layout.pagesDir pageFilter = .ok paths ∧
        (loadFragments config).run made = .ok fragments loaded ∧
        ((paths.map (PageSource.of · config.layout.output)).forM
            (buildPage tools config fragments)).run (loaded.told .processingPages) =
          .ok () written ∧
        (buildStylesheet tools config.layout).run (written.told .processingStylesheet) =
          .ok () styled ∧
        (bundleScripts tools config.layout).run (styled.told .processingScripts) =
          .ok scripts bundled ∧
        (copyAssets tools config.layout).run (bundled.told .processingAssets) = .ok assets after ∧
        result = ⟨paths.length, scripts, assets, config.layout.output⟩ := by
  simp only [buildSite, Action.run_bind_ok_iff, findPages_ok_iff, Action.run_tell_bind,
    Action.run_pure]
  constructor
  · rintro ⟨_, made, hdirs, _, _, ⟨paths, hscan, rfl, rfl⟩, fragments, loaded, hparts, _, written,
      hpages, _, styled, hstyle, scripts, bundled, hbundle, assets, _, hassets, hresult⟩
    cases hresult
    exact ⟨_, paths, fragments, loaded, written, styled, scripts, bundled, assets, hdirs, hscan,
      hparts, hpages, hstyle, hbundle, hassets, by rw [List.length_map]⟩
  · rintro ⟨made, paths, fragments, loaded, written, styled, scripts, bundled, assets, hdirs, hscan,
      hparts, hpages, hstyle, hbundle, hassets, rfl⟩
    refine ⟨_, made, hdirs, _, made, ⟨paths, hscan, rfl, rfl⟩, fragments, loaded, hparts, _, written,
      hpages, _, styled, hstyle, scripts, bundled, hbundle, assets, after, hassets, ?_⟩
    rw [List.length_map]

/-- **Again.** A build that succeeds in one listing order succeeds in every other one, with the same
    result, and leaves the same site. -/
theorem build_again (tools : Toolchain) (wf : before.WellFormed)
    (hseparate : Separate before config.layout.source config.layout.output)
    (hkeys : DistinctKeys before config.layout) (second : ListingOrder)
    (hrun : (buildSite tools config).run ⟨before, log⟩ = .ok result after)
    (hstyle : ∀ disk other, Disk.AgreeOn (fun _ => True) disk other →
      tools.stylesheet disk config.layout.stylesheet =
        tools.stylesheet other config.layout.stylesheet) :
    ∃ after', (buildSite { tools with order := second } config).run ⟨before, log⟩ =
        .ok result after' ∧ SameSite tools.order config.layout before after.disk after'.disk := by
  obtain ⟨place, hleads, hmade⟩ := outputMade_of_build wf hseparate hrun
  obtain ⟨made, paths, fragments, loaded, written, styled, scripts, bundled, assets, hdirs, hscan,
    hparts, hpages, hcss, hbundle, hassets, rfl⟩ := buildSite_ok_iff.mp hrun
  have hready : made.disk = readyDisk config.layout before := by
    rw [(Action.makeDirs_ok_iff.mp hdirs).2]
    rfl
  have hloaded : Disk.Alike (Building (readyDisk config.layout before) place) (fun _ => True)
      loaded.disk loaded.disk := by
    rw [(loadFragments_ok hparts).1, hready]
    exact ⟨.refl _ _, .refl _ _, .refl _ _⟩
  -- The same pages are found, in some other order.
  rw [hready] at hscan
  obtain ⟨paths', hscan', hperm⟩ := Disk.scan_reorder second hmade.wellFormed (fun _ _ => rfl) hscan
  have hsources : ∀ page ∈ paths.map (PageSource.of · config.layout.output),
      PageBelow config.layout.output page ∧
        PassesBy (readyDisk config.layout before) page.path place := by
    intro page hpage
    obtain ⟨path, hpath, rfl⟩ := List.mem_map.mp hpage
    obtain ⟨names, hnames, rfl⟩ := exists_joinAll_of_scan hmade.wellFormed hscan hpath
    exact ⟨pageBelow_of _ _, (hmade.source.join (by decide)).joinAll hnames⟩
  obtain ⟨written', hpages', hwritten⟩ := buildPages_reorder hmade (hperm.map _)
    (nodup_keys wf hkeys hscan) hsources hpages (loaded.told .processingPages) hloaded
  obtain ⟨styled', hcss', hstyled⟩ := buildStylesheet_again hmade hstyle hcss
    (written'.told .processingStylesheet) hwritten
  obtain ⟨bundled', hbundle', hbundled, hchunks⟩ := bundleScripts_reorder second hmade hbundle
    (styled'.told .processingScripts) hstyled
  have hrest : ∀ location, "assets" :: place <:+ location → location ≠ "bundle.js" :: place := by
    rintro location hbelow rfl
    exact Disk.not_below_sibling (by decide) hbelow
  obtain ⟨after', hassets', hafter, hkept, hkept'⟩ := copyAssets_reorder second hmade hrest hassets
    (bundled'.told .processingAssets) hbundled
  rw [← hready] at hscan'
  exact ⟨after', buildSite_ok_iff.mpr ⟨made, paths', fragments, loaded, written', styled', scripts,
    bundled', assets, hdirs, hscan', hparts, hpages', hcss', hbundle', hassets',
    by rw [hperm.length_eq]⟩,
    place, hleads, hafter, hchunks.kept hkept hkept' (Disk.not_below_sibling (by decide))⟩

/-- **Listing order.** For a source that is separate from the output and has no two pages of the same
    key, a build in one listing order succeeds if it does in another one. Then the results are the
    same, and so are the sites, but for the order of the chunks in the bundles. The stylesheet
    compiler is only asked to give the same for disks that hold the same everywhere. -/
theorem build_order_independent (tools : Toolchain) (config : SiteConfig) {before : Disk}
    (wf : before.WellFormed)
    (hseparate : Separate before config.layout.source config.layout.output)
    (hkeys : DistinctKeys before config.layout)
    (hstyle : ∀ disk other, Disk.AgreeOn (fun _ => True) disk other →
      tools.stylesheet disk config.layout.stylesheet =
        tools.stylesheet other config.layout.stylesheet) (first second : ListingOrder)
    (log : List Event) :
    let run order := (buildSite { tools with order := order } config).run ⟨before, log⟩
    (failure? (run first) = none ↔ failure? (run second) = none) ∧
      ∀ result result' after after', run first = .ok result after →
        run second = .ok result' after' →
        result = result' ∧ SameSite first config.layout before after.disk after'.disk := by
  intro run
  have hagain : ∀ order other result after, run order = .ok result after →
      ∃ after', run other = .ok result after' ∧
        SameSite order config.layout before after.disk after'.disk :=
    fun order other result after hrun =>
      build_again { tools with order := order } wf hseparate hkeys other hrun hstyle
  have hsucceeds : ∀ order other, failure? (run order) = none → failure? (run other) = none := by
    intro order other hnone
    obtain ⟨result, after, hrun⟩ := failure?_eq_none_iff.mp hnone
    obtain ⟨after', hother, -⟩ := hagain order other result after hrun
    exact failure?_eq_none_iff.mpr ⟨result, after', hother⟩
  refine ⟨⟨hsucceeds first second, hsucceeds second first⟩, ?_⟩
  intro result result' after after' hrun hrun'
  obtain ⟨after'', hother, hsame⟩ := hagain first second result after hrun
  rw [hrun'] at hother
  cases hother
  exact ⟨rfl, hsame⟩

/-- The small site with one page more and two scripts. -/
def scriptSite : Disk :=
  { smallSite with
    nodes := smallSite.nodes ++
      [(["about.md", "pages", "src"], .file .empty),
        (["b.js", "script", "parts", "src"], .file "b".toUTF8),
        (["a.js", "script", "parts", "src"], .file "a".toUTF8)] }

/-- The site with two scripts is built alike whether or not directories are sorted. -/
theorem build_order_independent_scripts :
    let run order := (buildSite { plainTools with order := order } (plainConfig ⟨"dest"⟩)).run
      ⟨scriptSite, []⟩
    ∃ result after after', run .stored = .ok result after ∧ run .byName = .ok result after' ∧
      SameSite .stored (plainConfig ⟨"dest"⟩).layout scriptSite after.disk after'.disk := by
  intro run
  have wf : scriptSite.WellFormed := by
    refine ⟨?_, ?_, ?_⟩ <;> decide +kernel
  have hno : ∀ location, scriptSite.NoLinksBelow location :=
    Disk.noLinksBelow_of_nodes (by simp [scriptSite, smallSite, Part.all])
  have hsource : scriptSite.PathLeads ⟨"src"⟩ ["src"] :=
    Disk.leads_down fun path => hno [] "src" [] path List.suffix_rfl
  have houtput : scriptSite.PathLeads ⟨"dest"⟩ ["dest"] :=
    Disk.leads_down fun path => hno [] "dest" [] path List.suffix_rfl
  have hway : ∀ passed, scriptSite.PathPasses ⟨"src"⟩ passed → ¬ Disk.Within ["dest"] passed := by
    intro passed hpasses
    rcases Disk.Passes.eq_of_down (hno []) hpasses with rfl | rfl <;> rw [Disk.Within] <;> decide
  have hscan : scriptSite.scan .stored (plainConfig ⟨"dest"⟩).layout.pagesDir pageFilter =
      .ok [⟨"src/pages/index.html"⟩, ⟨"src/pages/about.md"⟩] := by decide +kernel
  have hkeys := distinctKeys_of_scan wf hscan (by decide +kernel)
  obtain ⟨hsucceeds, hsame⟩ := build_order_independent plainTools (plainConfig ⟨"dest"⟩) wf
    (separate_of_noLinks hno hsource houtput hway (by decide) (by decide)) hkeys
    (fun _ _ _ => rfl) .stored .byName []
  have hstored : failure? (run .stored) = none := by decide +kernel
  obtain ⟨result, after, hrun⟩ := failure?_eq_none_iff.mp hstored
  obtain ⟨result', after', hrun'⟩ := failure?_eq_none_iff.mp (hsucceeds.mp hstored)
  obtain ⟨rfl, hsite⟩ := hsame result result' after after' hrun hrun'
  exact ⟨result, after, after', hrun, hrun', hsite⟩

end PageLoom
