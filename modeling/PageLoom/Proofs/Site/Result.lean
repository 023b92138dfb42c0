import PageLoom.Proofs.Disk.ScanResult
import PageLoom.Proofs.Site.Apart
import PageLoom.Proofs.Site.Outputs
import PageLoom.Proofs.Site.Progress

namespace PageLoom

/-!
# What a build leaves that succeeds

If source and output are apart, all that a build leaves can be told from the disk before it: the
last page with each key, the stylesheet, all scripts in one file, a copy of every asset, and nothing
else.

* `MadeDirs`, `BuiltFiles` — where a build writes;
* `FilesFound`, `AssetsFound` — the files that it reads;
* `SiteBuilt` — the complete result of a build, with the texts that it writes;
* `exists_last_page`, `scripts_found`, … — the results of single stages;
* `build_leaves_site` — a build that succeeds leaves its complete result.
-/

/-- Where directories are made for the copies of the assets: one for every directory of the
    assets. -/
def AssetDirs (layout : SiteLayout) (before : Disk) (place location : Location) : Prop :=
  ∃ names origin, (∀ name ∈ names, IsName name) ∧
    before.PathLeads (layout.assetsDir.joinAll names) origin ∧
    (readyDisk layout before).node? origin = some .dir ∧
    location = names.reverse ++ "assets" :: place

/-- Where the copies of the assets stand. -/
def AssetFiles (assets : List (List String × ByteArray)) (place location : Location) : Prop :=
  ∃ names bytes, (names, bytes) ∈ assets ∧ location = names.reverse ++ "assets" :: place

/-- Where a build writes pages. -/
def PageFiles (layout : SiteLayout) (paths : List Path) (place location : Location) : Prop :=
  ∃ path ∈ paths, location = ((PageSource.of path layout.output).key ++ ".html") :: place

/-- Where the pages and the stylesheet are written. -/
def StyledFiles (layout : SiteLayout) (paths : List Path) (place location : Location) : Prop :=
  PageFiles layout paths place location ∨ location = "style.css" :: place

/-- Where the pages, the stylesheet and the bundle are written. -/
def BundledFiles (layout : SiteLayout) (paths : List Path) (place location : Location) : Prop :=
  StyledFiles layout paths place location ∨ location = "bundle.js" :: place

/-- Where a build makes directories: the output directory and missing ones above it, and those for
    the assets. -/
def MadeDirs (layout : SiteLayout) (before : Disk) (place location : Location) : Prop :=
  before.Upwards layout.output location ∨ AssetDirs layout before place location

/-- Where a build writes files: the pages, the stylesheet, the bundle and the copies of the
    assets. -/
def BuiltFiles (layout : SiteLayout) (paths : List Path) (assets : List (List String × ByteArray))
    (place location : Location) : Prop :=
  BundledFiles layout paths place location ∨ AssetFiles assets place location

/-- The paths are those of all files below a root whose name has one of the extensions, each one
    once, in the order in which a scan finds them once the output directory was made. -/
structure FilesFound (order : ListingOrder) (extensions : List String) (before ready : Disk)
    (root : Path) (paths : List Path) : Prop where
  scan : ready.scan order root (.oneOf extensions) = .ok paths
  nodup : paths.Nodup
  mem_iff : ∀ path, path ∈ paths ↔
    ∃ place names name node key extension, before.PathLeads root place ∧
      path = root.joinAll (names ++ [name]) ∧
      before.node? (name :: (names.reverse ++ place)) = some node ∧ node ≠ .dir ∧
      extension ∈ extensions ∧ FileNamed name key extension

/-- Of the paths this one is the last with the key. Its name has the extension. -/
def IsLastPage (paths : List Path) (key : String) (last : Path) (extension : String) : Prop :=
  ∃ done rest, paths = done ++ last :: rest ∧ last.IsNamed key extension ∧
    ∀ later ∈ rest, ∀ other, ¬ later.IsNamed key other

/-- The assets are all files below their directory, links followed, each one once. There are none if
    there is no such directory. -/
structure AssetsFound (layout : SiteLayout) (before : Disk)
    (assets : List (List String × ByteArray)) : Prop where
  nodup : (assets.map Prod.fst).Nodup
  mem_iff : (readyDisk layout before).isThere (layout.source.join "assets") = true → ∀ names bytes,
    (names, bytes) ∈ assets ↔ (∀ name ∈ names, IsName name) ∧
      before.HoldsBytes ((layout.source.join "assets").joinAll names) bytes
  none : (readyDisk layout before).isThere (layout.source.join "assets") = false → assets = []

/-- The page with a key and this content: the layout around the content, laid out. -/
def laidOut (tools : Toolchain) (config : SiteConfig) (fragments : Fragments)
    (key content : String) : String :=
  let document : Document :=
    ⟨config.lang, fragments, key, content, config.hasSidebar key, tools.stamp⟩
  tools.formatter (document.textBefore ++ (content ++ document.textBehind))

/-- The complete result of a build. The output directory stands at `place`. What was read, from the
    pages `paths`, the layout parts, the `scripts` and the `assets`, is told by the disk `before`
    the build. -/
structure SiteBuilt (tools : Toolchain) (config : SiteConfig) (before : Disk) (place : Location)
    (fragments : Fragments) (paths scripts : List Path) (assets : List (List String × ByteArray))
    (result : BuildResult) (after : Disk) : Prop where
  leads : before.PathLeads config.layout.output place
  pagesFound : FilesFound tools.order ["html", "md", "txt"] before
    (readyDisk config.layout before) (config.layout.source.join "pages") paths
  loaded : ∀ part, PartLoaded config before part (fragments.part part)
  /-- For every key the last page with it was written. Its content is its text, which is put into
      markup if the extension says that it is in Markdown. -/
  pages : ∀ path ∈ paths, ∃ key own last extension text, path.IsNamed key own ∧
    IsLastPage paths key last extension ∧ before.HoldsText last text ∧
    after.node? ((key ++ ".html") :: place) = some (.file (laidOut tools config fragments key
      (if extension = "md" then tools.markdown text else text)).toUTF8)
  /-- The stylesheet was compiled when only the pages had been written. -/
  stylesheet : ∃ compiled css, before.Changes (before.Upwards config.layout.output)
      (PageFiles config.layout paths place) compiled ∧
    tools.stylesheet compiled config.layout.stylesheet = .ok css ∧
    after.node? ("style.css" :: place) = some (.file css.toUTF8)
  scriptsFound : FilesFound tools.order ["js"] before (readyDisk config.layout before)
    ((config.layout.source.join "parts").join "script") scripts
  /-- The bundle holds every script once: a line with its path, an empty one, its text, and an empty
      line. -/
  bundle : ∃ texts, List.Forall₂ before.HoldsText scripts texts ∧
    after.node? ("bundle.js" :: place) = some (.file (String.join (List.zipWith
      (fun script text => "// " ++ script.text ++ "\n\n" ++ text ++ "\n\n") scripts texts)).toUTF8)
  assetsFound : AssetsFound config.layout before assets
  copies : ∀ names bytes, (names, bytes) ∈ assets →
    after.node? (names.reverse ++ "assets" :: place) = some (.file bytes)
  result : result = ⟨paths.length, scripts.length, assets.length, config.layout.output⟩
  changes : before.Changes (MadeDirs config.layout before place)
    (BuiltFiles config.layout paths assets place) after

variable {tools : Toolchain} {config : SiteConfig} {before : Disk} {place : Location}
  {fragments : Fragments} {paths scripts : List Path} {disk after : Disk} {session final : Session}

/-! ### Files that are found -/

/-- What a scan for extensions finds are the files with them. -/
theorem Scanned.filesFound {order : ListingOrder} {extensions : List String} {ready : Disk}
    {root : Path} (h : Scanned order (.oneOf extensions) before ready root paths) :
    FilesFound order extensions before ready root paths := by
  refine ⟨h.scan, h.nodup, fun path => (h.mem_iff path).trans ?_⟩
  constructor
  · rintro ⟨place, hroot, names, name, node, hpath, hnode, hother, haccepts⟩
    obtain ⟨_, heq, extension, hmem, hextension⟩ :=
      (accepts_extensionOf?_iff.mp haccepts).resolve_left (by simp)
    cases heq
    exact ⟨place, names, name, node, keyOf name, extension, hroot, hpath, hnode, hother, hmem,
      fileNamed_iff.mpr ⟨rfl, hextension⟩⟩
  · rintro ⟨place, names, name, node, key, extension, hroot, hpath, hnode, hother, hmem, hnamed⟩
    refine ⟨place, hroot, names, name, node, hpath, hnode, hother, ?_⟩
    exact accepts_extensionOf?_iff.mpr
      (.inr ⟨extensions, rfl, extension, hmem, (fileNamed_iff.mp hnamed).2⟩)

/-- Each of them has a key and one of the extensions. -/
theorem FilesFound.isNamed {order : ListingOrder} {extensions : List String} {ready : Disk}
    {root path : Path} (wf : before.WellFormed)
    (h : FilesFound order extensions before ready root paths) (hpath : path ∈ paths) :
    ∃ key extension, path.IsNamed key extension := by
  obtain ⟨place, names, name, node, key, extension, -, rfl, hnode, -, -, hnamed⟩ :=
    (h.mem_iff path).mp hpath
  refine ⟨key, extension, name, ?_, hnamed⟩
  rw [Path.joinAll_concat, Path.fileName?_join _ (wf.isName hnode)]

/-- Only a page with the extension `md` is put into markup. -/
theorem pageContent_ofExtension (extension text : String) :
    pageContent tools (.ofExtension (some extension)) text =
      if extension = "md" then tools.markdown text else text := by
  by_cases hmarkdown : extension = "md"
  · rw [if_pos hmarkdown, hmarkdown]
    rfl
  · rw [if_neg hmarkdown]
    have hkind : PageKind.ofExtension (some extension) ≠ .markdown := by
      unfold PageKind.ofExtension
      split <;> simp_all
    unfold pageContent
    split
    · exact absurd ‹_› hkind
    · rfl
    · rfl

/-- What is written for a page is told by its key and its extension. -/
theorem pageText_of_isNamed {path : Path} {key extension : String}
    (h : path.IsNamed key extension) (output : Path) (text : String) :
    pageText tools config fragments (PageSource.of path output) text =
      laidOut tools config fragments key
        (if extension = "md" then tools.markdown text else text) := by
  unfold pageText laidOut
  rw [h.key_eq, h.kind_eq, pageContent_ofExtension]
  exact congrArg tools.formatter (Document.text_eq _)

/-! ### The stages before the assets -/

/-- Making the output directory makes directories only. -/
theorem changes_readyDisk (layout : SiteLayout) (before : Disk) :
    before.Changes (before.Upwards layout.output) (fun _ => False) (readyDisk layout before) :=
  before.makeDirsUpTo_changes layout.output.text.length layout.output

/-- Page files stand right in the output directory. -/
theorem PageFiles.exists_cons {layout : SiteLayout} {location : Location}
    (h : PageFiles layout paths place location) : ∃ name, location = name :: place := by
  obtain ⟨path, -, rfl⟩ := h
  exact ⟨_, rfl⟩

/-- So do page files and the stylesheet. -/
theorem StyledFiles.exists_cons {layout : SiteLayout} {location : Location}
    (h : StyledFiles layout paths place location) : ∃ name, location = name :: place := by
  rcases h with h | rfl
  · exact h.exists_cons
  · exact ⟨_, rfl⟩

/-- So do all files that are no assets. -/
theorem BundledFiles.exists_cons {layout : SiteLayout} {location : Location}
    (h : BundledFiles layout paths place location) : ∃ name, location = name :: place := by
  rcases h with h | rfl
  · exact h.exists_cons
  · exact ⟨_, rfl⟩

/-- Written pages are page files. -/
theorem PagesWritten.changes_pageFiles {start : Disk} {done rest : List PageSource}
    (hpages : paths.map (PageSource.of · config.layout.output) = done ++ rest)
    (h : PagesWritten tools config fragments place done start disk) :
    start.Changes (fun _ => False) (PageFiles config.layout paths place) disk := by
  refine h.changes.mono_files ?_
  rintro _ ⟨page, hpage, rfl⟩
  have hmem : page ∈ paths.map (PageSource.of · config.layout.output) := by
    rw [hpages]
    exact List.mem_append_left _ hpage
  obtain ⟨path, hpath, rfl⟩ := List.mem_map.mp hmem
  exact ⟨path, hpath, rfl⟩

/-- From the disk before a build, files were written only right in the output directory. -/
theorem changes_below {files : Location → Prop} {layout : SiteLayout}
    (h : (readyDisk layout before).Changes (fun _ => False) files disk)
    (hfiles : ∀ location, files location → ∃ name, location = name :: place) :
    before.Changes (before.Upwards layout.output) (place <:+ ·) disk := by
  refine ((changes_readyDisk layout before).mono_files fun _ => False.elim).trans
    (h.mono (fun _ => False.elim) fun location hlocation => ?_)
  obtain ⟨name, rfl⟩ := hfiles location hlocation
  exact List.suffix_cons name place

section Stages

variable (wf : before.WellFormed)
  (apart : Apart before config.layout.source config.layout.output)
  (hleads : before.PathLeads config.layout.output place)

include apart hleads in
/-- The parts that were loaded once the output directory was made are those of the disk before. -/
theorem partLoaded_of_ready {part : Part} {text : String}
    (h : PartLoaded config (readyDisk config.layout before) part text) :
    PartLoaded config before part text := by
  obtain ⟨raw, hholds, hdirectives⟩ := h
  have hchanges : before.Changes (before.Upwards config.layout.output) (place <:+ ·)
      (readyDisk config.layout before) :=
    (changes_readyDisk config.layout before).mono_files fun _ => False.elim
  have hnames : ∀ name ∈ ["parts", part.name, part.name ++ ".html"], IsName name := by
    cases part <;> decide
  exact ⟨raw, (hchanges.holdsText_iff (apart.staysOut place hleads) hnames).mp hholds, hdirectives⟩

include wf apart hleads in
/-- **Pages.** When all pages were written, the last one with each key stands in the output, made
    from the text that it had before the build. -/
theorem exists_last_page {path : Path} {key own : String}
    (hfound : Scanned tools.order pageFilter before (readyDisk config.layout before)
      config.layout.pagesDir paths)
    (hwritten : PagesWritten tools config fragments place
      (paths.map (PageSource.of · config.layout.output)) (readyDisk config.layout before) disk)
    (hpath : path ∈ paths) (hnamed : path.IsNamed key own) :
    ∃ last extension text, IsLastPage paths key last extension ∧ before.HoldsText last text ∧
      disk.node? ((key ++ ".html") :: place) = some (.file (laidOut tools config fragments key
        (if extension = "md" then tools.markdown text else text)).toUTF8) := by
  obtain ⟨done, page, rest, text, middle, hpages, hkey, hrest, hdone, hread, hnode⟩ :=
    hwritten.last (List.mem_map_of_mem hpath)
  rw [hnamed.key_eq] at hkey hrest hnode
  -- The pages are those of the paths, so the paths split where the pages do.
  obtain ⟨first, others, rfl, rfl, hothers⟩ := List.map_eq_append_iff.mp hpages
  obtain ⟨last, later, rfl, rfl, rfl⟩ := List.map_eq_cons_iff.mp hothers
  have hmem : last ∈ first ++ last :: later := by simp
  obtain ⟨named, extension, hlast⟩ := hfound.filesFound.isNamed wf hmem
  rw [hlast.key_eq] at hkey
  subst hkey
  refine ⟨last, extension, text, ⟨first, later, rfl, hlast, fun other hother _ hsame => ?_⟩, ?_, ?_⟩
  · exact hrest _ (List.mem_map_of_mem hother) (hsame.key_eq _)
  · have hout : StaysOut before config.layout.pagesDir place :=
      (apart.staysOut place hleads).join (by decide)
    exact hfound.holdsText wf hout
      (changes_below (hdone.changes_pageFiles hpages) fun _ => PageFiles.exists_cons)
      hmem hread
  · rw [hnode, pageText_of_isNamed hlast]

include wf apart hleads in
/-- **Scripts.** The scripts that were found when the stylesheet had been written are those of the
    disk before the build, with the texts that they had there. -/
theorem scripts_found {files : Location → Prop} {texts : List String}
    (hchanges : (readyDisk config.layout before).Changes (fun _ => False) files disk)
    (hfiles : ∀ location, files location → ∃ name, location = name :: place)
    (hdir : disk.node? place = some .dir)
    (hscan : disk.scan tools.order config.layout.scriptsDir scriptFilter = .ok scripts)
    (htexts : List.Forall₂ (fun path text => disk.readText path = .ok text) scripts texts) :
    Scanned tools.order scriptFilter before (readyDisk config.layout before)
      config.layout.scriptsDir scripts ∧ List.Forall₂ before.HoldsText scripts texts := by
  have hmade := changes_readyDisk config.layout before
  have hout : StaysOut before config.layout.scriptsDir place :=
    ((apart.staysOut place hleads).join (by decide)).join (by decide)
  have hfound := scanned_of_ready wf hmade
    (scan_of_filesBelow (hmade.wellFormed wf) hchanges hfiles hdir (hout.grows hmade.grows) hscan)
  refine ⟨hfound, ((List.forall₂_and_left _ _).mpr ⟨fun _ => id, htexts⟩).imp ?_⟩
  rintro path text ⟨hpath, hread⟩
  exact hfound.holdsText wf hout (changes_below hchanges hfiles) hpath hread

include wf apart hleads in
/-- **Assets.** When the bundle had been written, all assets of the disk before the build were
    copied. -/
theorem assets_copied {files : Location → Prop} {count : Nat}
    (hchanges : (readyDisk config.layout before).Changes (fun _ => False) files session.disk)
    (hfiles : ∀ location, files location → ∃ name, location = name :: place)
    (hready : OutputReady session.disk config.layout.output place)
    (hrun : (copyAssets tools config.layout).run session = .ok count final) :
    ∃ assets, count = assets.length ∧ AssetsFound config.layout before assets ∧
      (∀ names bytes, (names, bytes) ∈ assets →
        final.disk.node? (names.reverse ++ "assets" :: place) = some (.file bytes)) ∧
      session.disk.Changes (AssetDirs config.layout before place) (AssetFiles assets place)
        final.disk := by
  have hmade := changes_readyDisk config.layout before
  have hbelow := changes_below hchanges hfiles
  have hout : StaysOut before config.layout.assetsDir place :=
    (apart.staysOut place hleads).join (by decide)
  have hwritten : (readyDisk config.layout before).Changes (fun _ => False) (place <:+ ·)
      session.disk := hchanges.mono_files fun location hlocation => by
    obtain ⟨name, rfl⟩ := hfiles location hlocation
    exact List.suffix_cons name place
  -- The files written so far are not where the assets are, so these are as before.
  have hthere := hwritten.isThere_iff (hout.grows hmade.grows)
  have hcopyOut : StaysOut session.disk config.layout.assetsDir ("assets" :: place) :=
    fun names origin hnames horigin hin =>
      hout.grows hbelow.grows names origin hnames horigin ((List.suffix_cons _ _).trans hin)
  obtain ⟨assets, hcount, ⟨hfound, hcopied⟩ | ⟨hmissing, rfl, hdisk⟩⟩ :=
    copyAssets_copied (hbelow.wellFormed wf) hready hcopyOut hrun
  · refine ⟨assets, hcount, ⟨hcopied.nodup, fun _ names bytes => ?_, fun hno => ?_⟩,
      hcopied.copied, hcopied.changes.mono_dirs ?_⟩
    · rw [hcopied.mem_iff]
      constructor
      · rintro ⟨-, hnames, hholds⟩
        exact ⟨hnames, (hbelow.holdsBytes_iff hout hnames).mp hholds⟩
      · rintro ⟨hnames, hholds⟩
        exact ⟨trivial, hnames, (hbelow.holdsBytes_iff hout hnames).mpr hholds⟩
    · cases (hthere.mp hfound).symm.trans hno
    · rintro _ ⟨names, origin, -, hnames, horigin, hdir, rfl⟩
      exact ⟨names, origin, hnames, (hbelow.grows.pathLeads_iff _).mp horigin,
        hchanges.keeps_back.dir hdir, rfl⟩
  · refine ⟨[], hcount, ⟨by simp, fun hyes => ?_, fun _ => rfl⟩, by simp, ?_⟩
    · rw [hthere.mpr hyes] at hmissing
      cases hmissing
    · rw [hdisk]
      exact .refl _

end Stages

/-! ### The whole build -/

/-- A page is written under another name than the other outputs. -/
theorem pageFile_ne {key name : String} (h : ¬ ".html".toList <:+ name.toList) :
    key ++ ".html" ≠ name := by
  rintro rfl
  exact h (by simp)

/-- Copying the assets changes nothing right in the output directory but their directory. -/
theorem Disk.Changes.node_of_assets {assets : List (List String × ByteArray)} {layout : SiteLayout}
    {start : Disk}
    (h : start.Changes (AssetDirs layout before place) (AssetFiles assets place) after)
    {name : String} (hname : name ≠ "assets") :
    after.node? (name :: place) = start.node? (name :: place) := by
  have hother : ∀ names : List String, name :: place ≠ names.reverse ++ "assets" :: place := by
    intro names heq
    have hsuffix : "assets" :: place <:+ name :: place := by
      rw [heq]
      exact List.suffix_append _ _
    exact hname (List.cons.inj (hsuffix.eq_of_length (by simp))).1.symm
  refine h.node_eq ?_ ?_
  · rintro ⟨names, origin, -, -, -, hplace⟩
    exact hother names hplace
  · rintro ⟨names, bytes, -, hplace⟩
    exact hother names hplace

/-- **Complete result.** A build that succeeds, of a site whose source and output are apart, leaves
    the last page with each key, the compiled stylesheet, all scripts in one file and a copy of
    every asset, counts them, and changes nothing else. -/
theorem build_leaves_site (tools : Toolchain) (config : SiteConfig) {before : Disk}
    (wf : before.WellFormed) (apart : Apart before config.layout.source config.layout.output)
    (log : List Event) {result : BuildResult} {after : Session}
    (hrun : (buildSite tools config).run ⟨before, log⟩ = .ok result after) :
    ∃ place fragments paths scripts assets,
      SiteBuilt tools config before place fragments paths scripts assets result after.disk := by
  have hends := buildSite_ends tools config wf apart.noLinks log
  rw [hrun] at hends
  obtain ⟨place, fragments, pages, scripts, bundled, hready, ⟨styled, ⟨compiled, hpages, css,
    hcompile, hcss⟩, texts, hscan, htexts, hbundle⟩, hcopy, hcounts⟩ := hends
  -- All pages were written, so none is left of those that were found.
  obtain ⟨paths, hpaths, rfl⟩ : ∃ paths, (readyDisk config.layout before).scan tools.order
      config.layout.pagesDir pageFilter = .ok paths ∧
      pages = paths.map (PageSource.of · config.layout.output) := by
    obtain ⟨paths, hpaths, hsources⟩ := hpages.found
    rw [List.append_nil] at hsources
    exact ⟨paths, hpaths, hsources.symm⟩
  have hleads := hpages.leads
  have hmade := changes_readyDisk config.layout before
  have hfound := scanned_of_ready wf hmade hpaths
  have wf' := hmade.wellFormed wf
  -- The files that were written before each of the later stages.
  have hcompiled : (readyDisk config.layout before).Changes (fun _ => False)
      (PageFiles config.layout paths place) compiled :=
    hpages.written.changes_pageFiles (List.append_nil _).symm
  have hstyled : (readyDisk config.layout before).Changes (fun _ => False)
      (StyledFiles config.layout paths place) styled :=
    (hcompiled.mono_files fun _ => .inl).trans (hcss.changes.mono_files fun _ => .inr)
  have hbundled : (readyDisk config.layout before).Changes (fun _ => False)
      (BundledFiles config.layout paths place) bundled.disk :=
    (hstyled.mono_files fun _ => .inl).trans (hbundle.changes.mono_files fun _ => .inr)
  have hdir := hcss.changes.grows.dir (hcss.dir (hcompiled.wellFormed wf'))
  obtain ⟨hscripts, hchunks⟩ := scripts_found wf apart hleads hstyled
    (fun _ => StyledFiles.exists_cons) hdir hscan htexts
  -- Assets are copied last, below a directory of their own.
  obtain ⟨assets, hcount, hassets, hcopies, hlast⟩ := assets_copied wf apart hleads hbundled
    (fun _ => BundledFiles.exists_cons) (hready.grows hbundled.grows) hcopy
  -- Later stages write under other names.
  have hkeep : ∀ key : String, after.disk.node? ((key ++ ".html") :: place) =
      compiled.node? ((key ++ ".html") :: place) := by
    intro key
    rw [hlast.node_of_assets (pageFile_ne (by decide)), hbundle.changes.node_eq id,
      hcss.changes.node_eq id]
    · exact fun h => pageFile_ne (by decide) (List.cons.inj h).1
    · exact fun h => pageFile_ne (by decide) (List.cons.inj h).1
  refine ⟨place, fragments, paths, scripts, assets, hleads, hfound.filesFound,
    fun part => partLoaded_of_ready apart hleads (hpages.loaded part), fun path hpath => ?_,
    ⟨compiled, css, ?_, hcompile, ?_⟩, hscripts.filesFound, ⟨texts, hchunks, ?_⟩, hassets, hcopies,
    ?_, ?_⟩
  · obtain ⟨key, own, hnamed⟩ := hfound.filesFound.isNamed wf hpath
    obtain ⟨last, extension, text, hlast, htext, hnode⟩ :=
      exists_last_page wf apart hleads hfound hpages.written hpath hnamed
    exact ⟨key, own, last, extension, text, hnamed, hlast, htext, (hkeep key).trans hnode⟩
  · exact (hmade.mono_files fun _ => False.elim).trans (hcompiled.mono_dirs fun _ => False.elim)
  · rw [hlast.node_of_assets (by decide), hbundle.changes.node_eq id (by simp), hcss.node]
  · rw [hlast.node_of_assets (by decide), hbundle.node]
    rfl
  · rw [List.length_map] at hcounts
    obtain ⟨hpageCount, hscriptCount, houtput⟩ := hcounts
    rw [← hpageCount, ← hscriptCount, ← hcount, ← houtput]
  · exact ((hmade.mono (fun _ => .inl) fun _ => False.elim).trans
      (hbundled.mono (fun _ => False.elim) fun _ => .inl)).trans
        (hlast.mono (fun _ => .inr) fun _ => .inr)

/-- A compiler that takes stylesheets as they are, a converter that makes paragraphs, and a
    formatter that adds a line. -/
def markingTools : Toolchain where
  order := .stored
  stylesheet disk path := (disk.readText path).mapError IoError.message
  markdown text := "<p>" ++ text ++ "</p>"
  formatter text := text ++ "<!-- formatted -->\n"
  stamp := "today"

/-- A site with pages of each kind and at two depths, of which two have one key, with another file
    among them, and with scripts and assets at two depths. -/
def portalSite : Disk where
  home := []
  nodes :=
    [(["src"], .dir), (["style.css", "src"], .file "a".toUTF8),
      (["pages", "src"], .dir), (["index.html", "pages", "src"], .file "first".toUTF8),
      (["about.txt", "pages", "src"], .file "we".toUTF8), (["more", "pages", "src"], .dir),
      (["index.md", "more", "pages", "src"], .file "second".toUTF8),
      (["photo.png", "more", "pages", "src"], .file ⟨#[255]⟩),
      (["assets", "src"], .dir), (["logo", "assets", "src"], .file "x".toUTF8),
      (["icons", "assets", "src"], .dir), (["dot", "icons", "assets", "src"], .file "y".toUTF8),
      (["parts", "src"], .dir)] ++
    Part.all.map (fun part => ([part.name, "parts", "src"], .dir)) ++
    [(["head.html", "head", "parts", "src"], .file "head".toUTF8),
      (["header.html", "header", "parts", "src"],
        .file "<a class=\"menu-list-item-link-index\">".toUTF8),
      (["sidebar.html", "sidebar", "parts", "src"], .file "sidebar".toUTF8),
      (["footer.html", "footer", "parts", "src"], .file "footer".toUTF8),
      (["script.html", "script", "parts", "src"], .file "script".toUTF8),
      (["a.js", "script", "parts", "src"], .file "a()".toUTF8),
      (["lib", "script", "parts", "src"], .dir),
      (["b.js.txt", "lib", "script", "parts", "src"], .file "b()".toUTF8)]

theorem portalSite_wellFormed : portalSite.WellFormed := by
  refine ⟨?_, ?_, ?_⟩ <;> decide +kernel

theorem portalSite_noLinks (location : Location) : portalSite.NoLinksBelow location :=
  Disk.noLinksBelow_of_nodes (by simp [portalSite, Part.all]) location

/-- Files that the site becomes: the last page with the key `index`, put into markup, with its own
    link marked and the sidebar behind it; the stylesheet; the bundle; and the assets. -/
def portalFiles : List (Location × String) :=
  [(["index.html", "dest"], "<!DOCTYPE html>\n<html lang=\"\">\nhead\n<body>\n" ++
      "  <a class=\"menu-list-item-link-index active-page\">\n  <div class=\"container\">\n" ++
      "    <div class=\"main\">\n    <div class=\"content-with-sidebar\">\n" ++
      "      <p>second</p>\n    </div>sidebar\n  </div>\n  </div>\n  footer\n  script\n" ++
      "  <!-- Last updated: today -->\n</body>\n</html>\n<!-- formatted -->\n"),
    (["style.css", "dest"], "a"),
    (["bundle.js", "dest"], "// src/parts/script/a.js\n\na()\n\n" ++
      "// src/parts/script/lib/b.js.txt\n\nb()\n\n"),
    (["logo", "assets", "dest"], "x"), (["dot", "icons", "assets", "dest"], "y")]

/-- The site is built completely, with all of these files. -/
theorem build_leaves_site_portal :
    ∃ after, (buildSite markingTools (plainConfig ⟨"dest"⟩)).run ⟨portalSite, []⟩ =
        .ok ⟨3, 2, 2, ⟨"dest"⟩⟩ after ∧
      (∃ place fragments paths scripts assets, SiteBuilt markingTools (plainConfig ⟨"dest"⟩)
        portalSite place fragments paths scripts assets ⟨3, 2, 2, ⟨"dest"⟩⟩ after.disk) ∧
      ∀ file ∈ portalFiles, after.disk.node? file.1 = some (.file file.2.toUTF8) := by
  have hsource : portalSite.PathLeads ⟨"src"⟩ ["src"] :=
    Disk.leads_down fun path => portalSite_noLinks [] "src" [] path List.suffix_rfl
  have houtput : portalSite.PathLeads ⟨"dest"⟩ ["dest"] :=
    Disk.leads_down fun path => portalSite_noLinks [] "dest" [] path List.suffix_rfl
  have apart := apart_of_noLinks portalSite_noLinks hsource houtput (by decide) (by decide)
  -- One run tells the result and the files.
  have hvalue : (match (buildSite markingTools (plainConfig ⟨"dest"⟩)).run ⟨portalSite, []⟩ with
      | .ok result after => some (result, decide (∀ file ∈ portalFiles,
          after.disk.node? file.1 = some (.file file.2.toUTF8)))
      | .error _ _ => none) = some (⟨3, 2, 2, ⟨"dest"⟩⟩, true) := by decide +kernel
  cases hrun : (buildSite markingTools (plainConfig ⟨"dest"⟩)).run ⟨portalSite, []⟩ with
  | error e after =>
    rw [hrun] at hvalue
    cases hvalue
  | ok result after =>
    rw [hrun] at hvalue
    obtain ⟨hresult, hfiles⟩ := Prod.mk.inj (Option.some.inj hvalue)
    subst hresult
    exact ⟨after, rfl, build_leaves_site markingTools (plainConfig ⟨"dest"⟩) portalSite_wellFormed
      apart [] hrun, of_decide_eq_true hfiles⟩

end PageLoom
