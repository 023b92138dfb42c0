import PageLoom.Proofs.Site.Loop
import PageLoom.Proofs.Site.Separate
import PageLoom.Proofs.Site.Stages

namespace PageLoom

/-!
# Stages in another listing order

Each stage of a build is run on two disks that are alike, with two listing orders. If it succeeds
with one order, it does with the other one, and leaves the disks alike. The stages that go through
entries of directories write each result to a place of its own.

* `OutputMade` — what holds once the output directory was made;
* `writeOutput_again` — what can be written into the output directory on both disks;
* `buildPages_reorder`, `buildStylesheet_again`, `bundleScripts_reorder` — the stages before the
  assets.
-/

/-- The output directory was made at `place`, and the source passes it by. -/
structure OutputMade (ready : Disk) (layout : SiteLayout) (place : Location) : Prop where
  wellFormed : ready.WellFormed
  output : OutputReady ready layout.output place
  dir : ready.node? place = some .dir
  source : PassesBy ready layout.source place

variable {ready disk : Disk} {layout : SiteLayout} {place : Location} {name : String}
  {session other after : Session} {on : Location → Prop} {ε : Type}

/-- While a site is built its output directory stays ready. -/
theorem OutputMade.outputReady (h : OutputMade ready layout place)
    (hdisk : Building ready place disk) : OutputReady disk layout.output place :=
  h.output.grows hdisk.grows

/-- While a site is built its output files are entries of the output directory. -/
theorem OutputMade.isEntry (h : OutputMade ready layout place) (hdisk : Building ready place disk)
    (hname : IsName name) : disk.IsEntry (layout.output.join name) place name :=
  have hready := h.outputReady hdisk
  ⟨hname, hdisk.grows.dir h.dir, fun target => hready.noLinks name place target List.suffix_rfl,
    layout.output, Path.withoutSlashes_of_not_endsInSlash (layout.output.toList_join_ne_nil hname)
      (layout.output.endsInSlash_join hname), hready.stands⟩

/-- While a site is built files may be written into its output directory. -/
theorem Building.wrote {text : String} {changed : Disk} (h : Building ready place disk)
    (hwrote : WroteBelow place name text disk changed) : Building ready place changed := by
  refine h.step hwrote.changes (fun _ => False.elim) ?_
  rintro _ rfl
  exact Disk.within_cons List.suffix_rfl

/-- What can be written into the output directory on one disk can be written on another one, too, and
    so can any other text. -/
theorem writeOutput_again {onError : IoError → ε} {text : String} {value : Unit}
    (h : OutputMade ready layout place) (hname : IsName name)
    (hrun : (Action.writeFile onError (layout.output.join name) text).run session = .ok value after)
    (other : Session) (halike : Disk.Alike (Building ready place) on session.disk other.disk)
    (hon : on (name :: place)) (text' : String) :
    WroteBelow place name text session.disk after.disk ∧
      ∃ after', (Action.writeFile onError (layout.output.join name) text').run other =
          .ok value after' ∧ WroteBelow place name text' other.disk after'.disk := by
  refine ⟨writeOutput_ok hrun (h.outputReady halike.left) hname, ?_⟩
  obtain ⟨parent, hparent, htrims⟩ := layout.output.exists_parent?_join hname
  rw [Action.writeFile_below hparent ((h.outputReady halike.left).stands.trims htrims)] at hrun
  obtain ⟨written, hwrite, -⟩ := Action.change_ok_iff.mp hrun
  obtain ⟨-, hwrite'⟩ := halike.agree.write hon (h.isEntry halike.left hname)
    (h.isEntry halike.right hname) hwrite text'.toUTF8
  have hrun' : (Action.writeFile onError (layout.output.join name) text').run other =
      .ok value { other with disk := other.disk.put (name :: place) (.file text'.toUTF8) } := by
    rw [Action.writeFile_below hparent ((h.outputReady halike.right).stands.trims htrims)]
    exact Action.change_ok_iff.mpr ⟨_, hwrite', rfl⟩
  exact ⟨_, hrun', writeOutput_ok hrun' (h.outputReady halike.right) hname⟩

/-- Disks are alike after the same text was written on both. -/
theorem Disk.Alike.wrote {text : String} {changed changed' : Disk} {disk' : Disk}
    (halike : Disk.Alike (Building ready place) on disk disk')
    (h : WroteBelow place name text disk changed) (h' : WroteBelow place name text disk' changed') :
    Disk.Alike (Building ready place) on changed changed' := by
  refine ⟨halike.left.wrote h, halike.right.wrote h', ?_⟩
  rw [h.2, h'.2]
  exact halike.agree.put name place _

/-! ### Pages -/

section Pages

variable {tools : Toolchain} {config : SiteConfig} {fragments : Fragments} {page : PageSource}
  {pages pages' : List PageSource}

/-- A page is built from its own file, and written to its own place. -/
theorem buildPage_confined (h : OutputMade ready config.layout place)
    (hpage : PageBelow config.layout.output page) (hpath : PassesBy ready page.path place) :
    Action.Confined (Building ready place) (· = (page.key ++ ".html") :: place)
      (buildPage tools config fragments page) := by
  constructor
  · intro session value after hdisk hrun
    obtain ⟨text, -, hwrote⟩ := buildPage_ok (h.outputReady hdisk) hpage hrun
    exact hwrote.changes.agreeOn (fun _ _ => id) fun _ => id
  · intro session other value after halike hrun
    simp only [buildPage, Action.run_tell_bind] at hrun ⊢
    obtain ⟨text, _, hlook, hwrite⟩ := Action.run_bind_ok_iff.mp hrun
    obtain ⟨hread, rfl⟩ := Action.look_ok_iff.mp hlook
    -- The page is read from the source, so both disks hold the same text.
    have hread' : other.disk.readText page.path = .ok text :=
      (halike.left.readText_eq halike.right h.output.noLinks hpath).trans hread
    rw [Action.run_bind_of_ok (Action.look_ok_iff.mpr ⟨hread', rfl⟩)]
    rw [hpage.1] at hwrite ⊢
    obtain ⟨hwrote, after', hrun', hwrote'⟩ := writeOutput_again h hpage.2 hwrite
      { other with log := other.log ++ [.processingPage page.path] } halike rfl
      (pageText tools config fragments page text)
    exact ⟨after', hrun', halike.wrote hwrote hwrote'⟩

/-- **Pages.** Pages with different keys can be built in any order. -/
theorem buildPages_reorder {value : Unit} (h : OutputMade ready config.layout place)
    (hperm : pages.Perm pages') (hkeys : (pages.map (·.key)).Nodup)
    (hpages : ∀ page ∈ pages, PageBelow config.layout.output page ∧ PassesBy ready page.path place)
    (hrun : (pages.forM (buildPage tools config fragments)).run session = .ok value after)
    (other : Session)
    (halike : Disk.Alike (Building ready place) (fun _ => True) session.disk other.disk) :
    ∃ after', (pages'.forM (buildPage tools config fragments)).run other = .ok value after' ∧
      Disk.Alike (Building ready place) (fun _ => True) after.disk after'.disk := by
  have hapart : Action.RegionsApart (fun page location => location = (page.key ++ ".html") :: place)
      pages := by
    refine (List.pairwise_map.mp hkeys).imp fun hkey location hfirst hsecond => hkey ?_
    rw [hfirst] at hsecond
    exact (String.append_left_inj _).mp (List.cons.inj hsecond).1
  exact Action.forM_reorder hperm hapart
    (fun page hpage => buildPage_confined h (hpages page hpage).1 (hpages page hpage).2)
    (fun _ _ _ _ => trivial) hrun other halike

end Pages

/-! ### Stylesheet and bundle -/

variable {tools : Toolchain}

/-- **Stylesheet.** On disks that hold the same everywhere the same stylesheet is written. -/
theorem buildStylesheet_again {value : Unit} (h : OutputMade ready layout place)
    (hstyle : ∀ disk other, Disk.AgreeOn (fun _ => True) disk other →
      tools.stylesheet disk layout.stylesheet = tools.stylesheet other layout.stylesheet)
    (hrun : (buildStylesheet tools layout).run session = .ok value after) (other : Session)
    (halike : Disk.Alike (Building ready place) (fun _ => True) session.disk other.disk) :
    ∃ after', (buildStylesheet tools layout).run other = .ok value after' ∧
      Disk.Alike (Building ready place) (fun _ => True) after.disk after'.disk := by
  obtain ⟨text, _, hlook, hwrite⟩ := Action.run_bind_ok_iff.mp hrun
  obtain ⟨hcompile, rfl⟩ := Action.look_ok_iff.mp hlook
  have hcompile' := (hstyle _ _ halike.agree).symm.trans hcompile
  obtain ⟨hwrote, after', hrun', hwrote'⟩ :=
    writeOutput_again h (by decide) hwrite other halike trivial text
  refine ⟨after', Action.run_bind_ok_iff.mpr ⟨text, other, ?_, hrun'⟩, halike.wrote hwrote hwrote'⟩
  exact Action.look_ok_iff.mpr ⟨hcompile', rfl⟩

/-- The text of a bundle, from the scripts with their texts. -/
def bundleText (pieces : List (Path × String)) : String :=
  String.join (pieces.map fun piece => scriptChunk piece.1 piece.2)

/-- The bundles on two disks have the same chunks, though maybe in another order: one for each script
    that a scan finds on the disk `ready`, with the text that it has there. -/
def SameChunks (order : ListingOrder) (layout : SiteLayout) (ready : Disk) (place : Location)
    (disk other : Disk) : Prop :=
  ∃ (paths : List Path) (pieces pieces' : List (Path × String)),
    ready.scan order layout.scriptsDir scriptFilter = .ok paths ∧
    (pieces.map Prod.fst).Perm paths ∧
    (∀ piece ∈ pieces, ready.readText piece.1 = .ok piece.2) ∧
    pieces.Perm pieces' ∧
    disk.node? ("bundle.js" :: place) = some (.file (bundleText pieces).toUTF8) ∧
    other.node? ("bundle.js" :: place) = some (.file (bundleText pieces').toUTF8)

/-- The piece of a bundle that comes from a script. -/
def IsPiece (disk : Disk) (path : Path) (piece : Path × String) : Prop :=
  piece.1 = path ∧ disk.readText path = .ok piece.2

/-- The pieces from scripts have the paths and the texts of these. -/
theorem pieces_of_forall₂ {paths : List Path} {pieces : List (Path × String)}
    (h : List.Forall₂ (IsPiece disk) paths pieces) :
    pieces.map Prod.fst = paths ∧ ∀ piece ∈ pieces, disk.readText piece.1 = .ok piece.2 := by
  induction h with
  | nil => simp
  | @cons path piece paths pieces hpiece _ ih =>
    obtain ⟨rfl, hread⟩ := hpiece
    exact ⟨congrArg _ ih.1, List.forall_mem_cons.mpr ⟨hread, ih.2⟩⟩

/-- Scripts that were loaded are the pieces of a bundle. -/
theorem exists_pieces_of_loadScripts {paths : List Path} {chunks : List String}
    (h : (paths.mapM loadScript).run session = .ok chunks after) :
    after.disk = session.disk ∧ ∃ pieces, List.Forall₂ (IsPiece session.disk) paths pieces ∧
      chunks = pieces.map fun piece => scriptChunk piece.1 piece.2 := by
  obtain ⟨hdisk, texts, htexts, rfl⟩ := loadScripts_ok h
  refine ⟨hdisk, paths.zip texts, ?_, ?_⟩
  · clear h
    induction htexts with
    | nil => exact .nil
    | cons hread _ ih => exact .cons ⟨rfl, hread⟩ ih
  · rw [List.map_zip_eq_zipWith]
    rfl

/-- The pieces of a bundle can be loaded. -/
theorem loadScripts_of_pieces {paths : List Path} {pieces : List (Path × String)}
    (h : List.Forall₂ (IsPiece session.disk) paths pieces) :
    ∃ after, (paths.mapM loadScript).run session =
        .ok (pieces.map fun piece => scriptChunk piece.1 piece.2) after ∧
      after.disk = session.disk := by
  induction paths generalizing session pieces with
  | nil =>
    cases h
    exact ⟨session, rfl, rfl⟩
  | cons path paths ih =>
    cases h with
    | @cons _ piece _ pieces hpiece hmore =>
      obtain ⟨rfl, hread⟩ := hpiece
      obtain ⟨told, hload, htold⟩ : ∃ told, (loadScript piece.1).run session =
          .ok (scriptChunk piece.1 piece.2) told ∧ told.disk = session.disk := by
        refine ⟨{ session with log := session.log ++ [.addingScript piece.1] }, ?_, rfl⟩
        simp only [loadScript, Action.run_tell_bind]
        exact Action.run_bind_ok_iff.mpr ⟨piece.2, _, Action.look_ok_iff.mpr ⟨hread, rfl⟩, rfl⟩
      rw [← htold] at hmore ⊢
      obtain ⟨after, hafter, hdisk⟩ := ih hmore
      exact ⟨after, Action.run_mapM_cons_ok_iff.mpr ⟨_, _, _, hload, hafter, rfl⟩, hdisk⟩

/-- A path that a scan found goes on from the root of the scan with names. -/
theorem exists_joinAll_of_scan {order : ListingOrder} {filter : ExtensionFilter} {root path : Path}
    {paths : List Path} (wf : disk.WellFormed) (hscan : disk.scan order root filter = .ok paths)
    (hpath : path ∈ paths) : ∃ names, (∀ name ∈ names, IsName name) ∧ path = root.joinAll names :=
  (scanned_of_ready wf (Disk.Changes.refl disk : disk.Changes (fun _ => False) _ disk) hscan).exists_joinAll
    wf hpath

/-- What is read from a path that passes by makes the same piece while a site is built. -/
theorem Building.isPiece_iff {path : Path} {piece : Path × String} (hdisk : Building ready place disk)
    (h : OutputMade ready layout place) (hpath : PassesBy ready path place) :
    IsPiece disk path piece ↔ IsPiece ready path piece := by
  rw [IsPiece, IsPiece, (Building.refl ready place).readText_eq hdisk h.output.noLinks hpath]

/-- **Bundle.** In another listing order the scripts are bundled, too, in some other order. -/
theorem bundleScripts_reorder {count : Nat} (second : ListingOrder)
    (h : OutputMade ready layout place)
    (hrun : (bundleScripts tools layout).run session = .ok count after) (other : Session)
    (halike : Disk.Alike (Building ready place) (fun _ => True) session.disk other.disk) :
    ∃ after', (bundleScripts { tools with order := second } layout).run other = .ok count after' ∧
      Disk.Alike (Building ready place) (· ≠ "bundle.js" :: place) after.disk after'.disk ∧
      SameChunks tools.order layout ready place after.disk after'.disk := by
  have hscripts : PassesBy ready layout.scriptsDir place :=
    (h.source.join (by decide)).join (by decide)
  have wf := halike.left.wellFormed h.wellFormed
  obtain ⟨paths, _, hlook, hrest⟩ := Action.run_bind_ok_iff.mp hrun
  obtain ⟨hscan, rfl⟩ := Action.look_ok_iff.mp hlook
  obtain ⟨chunks, middle, hload, hrest⟩ := Action.run_bind_ok_iff.mp hrest
  obtain ⟨_, _, hwrite, hrest⟩ := Action.run_bind_ok_iff.mp hrest
  cases hrest
  have hpaths : ∀ path ∈ paths, PassesBy ready path place := by
    intro path hpath
    obtain ⟨names, hnames, rfl⟩ := exists_joinAll_of_scan wf hscan hpath
    exact hscripts.joinAll hnames
  -- The scripts are found again, and their pieces come in the new order.
  obtain ⟨paths', hscan', hperm⟩ := Disk.scan_reorder second wf (fun names hnames =>
    halike.left.list_eq halike.right h.output.noLinks (hscripts.joinAll hnames)) hscan
  obtain ⟨hmiddle, pieces, hpieces, rfl⟩ := exists_pieces_of_loadScripts hload
  have hread : List.Forall₂ (IsPiece ready) paths pieces :=
    ((List.forall₂_and_left _ _).mpr ⟨fun _ => id, hpieces⟩).imp fun path piece hpiece =>
      (halike.left.isPiece_iff h (hpaths path hpiece.1)).mp hpiece.2
  obtain ⟨hnames, htexts⟩ := pieces_of_forall₂ hread
  obtain ⟨pieces', hread', hshuffled⟩ := List.perm_comp_forall₂ hperm.symm hread
  have hpieces' : List.Forall₂ (IsPiece other.disk) paths' pieces' :=
    ((List.forall₂_and_left _ _).mpr ⟨fun _ => id, hread'⟩).imp fun path piece hpiece =>
      (halike.right.isPiece_iff h (hpaths path (hperm.mem_iff.mpr hpiece.1))).mpr hpiece.2
  obtain ⟨middle', hload', hmiddle'⟩ := loadScripts_of_pieces hpieces'
  have halike' : Disk.Alike (Building ready place) (fun _ => True) middle.disk middle'.disk := by
    rwa [hmiddle, hmiddle']
  obtain ⟨hwrote, after', hwrite', hwrote'⟩ := writeOutput_again h (by decide) hwrite middle'
    halike' trivial (bundleText pieces')
  obtain ⟨found, hfound, hsame⟩ := Disk.scan_reorder tools.order wf (fun names hnames =>
    halike.left.list_eq (.refl _ _) h.output.noLinks (hscripts.joinAll hnames)) hscan
  refine ⟨after', ?_, ⟨halike'.left.wrote hwrote, halike'.right.wrote hwrote', ?_⟩,
    found, pieces, pieces', hfound, ?_, htexts, hshuffled.symm, hwrote.node, hwrote'.node⟩
  · rw [hperm.length_eq]
    refine Action.run_bind_ok_iff.mpr ⟨paths', other, Action.look_ok_iff.mpr ⟨hscan', rfl⟩, ?_⟩
    refine Action.run_bind_ok_iff.mpr ⟨_, middle', hload', ?_⟩
    exact Action.run_bind_ok_iff.mpr ⟨_, after', hwrite', rfl⟩
  · -- Only the bundles differ.
    refine (hwrote.changes.agreeOn ?_ fun _ => id).symm.trans
      ((halike'.agree.mono fun _ _ => trivial).trans (hwrote'.changes.agreeOn ?_ fun _ => id))
    · exact fun _ _ => id
    · exact fun _ _ => id
  · rwa [hnames]

end PageLoom
