import PageLoom.Proofs.Site.Order
import PageLoom.Proofs.Site.Replay

namespace PageLoom

/-!
# Building again

A site whose source is separate from its output can be built again and again. Each further build
returns what the first one returned, and leaves the disk as it is.

* `copyWithin_replays`, `copyAssets_replays` — copies that can be made again;
* `buildSite_replays` — a build that can be done again once its output directory was made;
* `CompilesOutside` — a compiler that does not read what is inside the output directory;
* `buildTimes` — builds in a row;
* `rebuild_step` — one more build;
* `rebuild_idempotent` — any number of them.
-/

/-! ### Copies -/

variable {ready disk : Disk} {place base : Location} {target path : Path} {names : List String}
  {order : ListingOrder} {above : List Ancestor}

/-- The directory of a copy can be made again: it is there then, and nothing is done. -/
theorem makeDirs_replays (hinside : Disk.Within place base) :
    Action.Replays (CopyHere ready place target base names) (CopyOpen ready place target base names)
      (Action.makeDirs CopyError.write (target.join (relativeText names))) := by
  have hopen : ∀ {session after : Session} {value : Unit},
      CopyHere ready place target base names session.disk →
      (Action.makeDirs CopyError.write (target.join (relativeText names))).run session =
        .ok value after → CopyOpen ready place target base names after.disk := by
    intro session after value hdisk hrun
    obtain ⟨hok, rfl⟩ := Action.makeDirs_ok_iff.mp hrun
    have hsame : Disk.Alike (CopyHere ready place target base names) (names.reverse ++ base <:+ ·)
        session.disk session.disk := ⟨hdisk, hdisk, .refl _ _⟩
    exact (makeDirs_again hinside hsame hok).2.left
  constructor
  · intro session value after hdisk hrun
    refine ⟨?_, hopen hdisk hrun⟩
    rw [(Action.makeDirs_ok_iff.mp hrun).2]
    exact (makeDirs_target hdisk.copyReady).1.grows
  · intro session other value after hdisk hdisk' hother hrun
    have hdir := (hopen hdisk hrun).dir
    obtain ⟨hok, rfl⟩ := Action.makeDirs_ok_iff.mp hrun
    obtain ⟨name, up, hplace, hentry⟩ := hdisk.isEntry
    obtain ⟨name', up', hplace', hentry'⟩ := hdisk'.isEntry
    cases hplace.symm.trans hplace'
    obtain ⟨hfault, hsize, -⟩ := hentry.of_makeDirs hok
    have hdir' : other.disk.node? (name :: up) = some .dir := hplace ▸ hother.dir hdir
    have hnothing := hentry'.makeDirs_of_dir hfault hsize hdir'
    refine ⟨other, Action.makeDirs_ok_iff.mpr ⟨by rw [hnothing], by rw [hnothing]⟩, ?_⟩
    intro location
    by_cases hlocation : location = name :: up
    · rw [hlocation, hdir', ← hplace]
      exact .inl hdir.symm
    · refine .inr ⟨(makeDirs_target hdisk.copyReady).1.node_eq ?_ id, rfl⟩
      rwa [hplace]

/-- A file of the source can be copied again. -/
theorem copyOne_replays (hinside : Disk.Within place base) (hlinks : ready.NoLinksBelow place)
    (hpath : PassesBy ready path place) :
    Action.Replays (CopyHere ready place target base names) (Building ready place)
      (copyOne path (target.join (relativeText names)) (relativeText names)) := by
  constructor
  · intro session value after hdisk hrun
    have hchanges := copyOne_changes path hdisk.copyReady
    rw [hrun] at hchanges
    exact ⟨hchanges.grows, hdisk.building.copied hinside hchanges⟩
  · intro session other value after hdisk hdisk' hother hrun
    obtain ⟨name, up, hplace, hentry⟩ := hdisk.isEntry
    obtain ⟨name', up', hplace', hentry'⟩ := hdisk'.isEntry
    cases hplace.symm.trans hplace'
    have hhere : names.reverse ++ base <:+ name :: up := hplace ▸ List.suffix_rfl
    obtain ⟨origin, bytes, hstatus, hwrite⟩ := (hentry.copyFile_ok_iff fun _ _ =>
      origin_ne_copy hinside hlinks hpath hdisk.building hhere).mp (copyOne_ok hdisk.copyReady hrun)
    have hstatus' : other.disk.status path = .ok (origin, .file bytes) :=
      (hdisk.building.status_eq hdisk'.building hlinks hpath).trans hstatus
    obtain ⟨again, hwrite', hredone⟩ := hentry.write_redone hentry' hother hwrite
    obtain ⟨later, hone, rfl⟩ := copyOne_of_copyFile hdisk'.copyReady
      ((hentry'.copyFile_ok_iff fun _ _ =>
        origin_ne_copy hinside hlinks hpath hdisk'.building hhere).mpr
        ⟨origin, bytes, hstatus', hwrite'⟩)
    exact ⟨later, hone, hredone⟩

/-- **Copies.** A tree can be copied again. -/
theorem copyWithin_replays (hinside : Disk.Within place base) (wf : ready.WellFormed)
    (hlinks : ready.NoLinksBelow place) (depth : Nat) (hpath : PassesBy ready path place)
    (hnames : ∀ name ∈ names, IsName name) :
    Action.Replays (CopyHere ready place target base names) (Building ready place)
      (copyWithin order target depth above path (relativeText names)) := by
  induction depth generalizing above path names with
  | zero => exact Action.replays_throw _
  | succ depth ih =>
    rw [copyWithin]
    have hfollow : ∀ disk other, CopyHere ready place target base names disk →
        CopyHere ready place target base names other →
        followEntry above path other = followEntry above path disk :=
      fun _ _ hdisk hdisk' => hdisk.building.followEntry_eq hdisk'.building hlinks hpath above
    refine Action.replays_bind (Action.replays_look hfollow) fun _ found _ _ _ => ?_
    split
    · -- A directory: it is made, and then its entries are copied by the induction hypothesis.
      rename_i location _
      refine Action.replays_bind (makeDirs_replays hinside) fun _ _ _ _ _ => ?_
      have hlist : ∀ disk other, CopyOpen ready place target base names disk →
          CopyOpen ready place target base names other → other.list path = disk.list path :=
        fun _ _ hdisk hdisk' => hdisk.building.list_eq hdisk'.building hlinks hpath
      refine Action.replays_bind (Action.replays_look hlist) fun session entries _ hdisk hlook => ?_
      obtain ⟨hentries, -⟩ := Action.look_ok_iff.mp hlook
      have hcopy : ∀ entry ∈ order.arrange path entries,
          Action.Replays (CopyOpen ready place target base names)
            (CopyOpen ready place target base names)
            (copyWithin order target depth (⟨location, path⟩ :: above) (path.join entry.1)
              (entryBelow (relativeText names) entry.1)) := by
        intro entry hentry
        have hname := isName_of_mem_arrange (hdisk.building.wellFormed wf) hentries hentry
        rw [← relativeText_concat]
        refine (ih (hpath.join hname) ?_).weaken
          (fun disk hopen => hopen.entry hinside wf hlinks hnames hname) ?_
        · exact List.forall_mem_append.mpr ⟨hnames, by simpa using hname⟩
        · intro session value after hopen hrun
          exact hopen.copied hinside
            (copyWithin_frame (hopen.entry hinside wf hlinks hnames hname).copyReady hrun)
      refine Action.replays_bind (Action.replays_mapM hcopy) fun _ counts _ _ _ => ?_
      refine (Action.replays_pure _).weaken (fun _ hopen => hopen.building) ?_
      rintro session value after hopen ⟨⟩
      exact hopen.building
    · exact Action.replays_bind (copyOne_replays hinside hlinks hpath)
        fun _ _ _ _ _ => Action.replays_pure _

variable {layout : SiteLayout} {tools : Toolchain} {config : SiteConfig}

/-- **Assets.** The assets can be copied again. -/
theorem copyAssets_replays (h : OutputMade ready layout place) :
    Action.Replays (Building ready place) (Building ready place) (copyAssets tools layout) := by
  have hassets : PassesBy ready layout.assetsDir place := h.source.join (by decide)
  have hinside : Disk.Within place ("assets" :: place) := Disk.within_cons List.suffix_rfl
  refine Action.replays_bind (Action.replays_look fun _ _ hdisk hdisk' =>
    hdisk.isThere?_eq hdisk' h.output.noLinks hassets) fun _ isThere _ _ _ => ?_
  split
  · have hcopy : Action.Replays (CopyHere ready place layout.outputAssets ("assets" :: place) [])
        (Building ready place)
        (copyWithin tools.order layout.outputAssets (pathLimit + 1) [] layout.assetsDir
          (relativeText [])) :=
      copyWithin_replays hinside h.wellFormed h.output.noLinks (pathLimit + 1) hassets (by simp)
    refine Action.replays_adapt (hcopy.weaken (fun _ hdisk => h.copyHere hdisk) ?_)
    exact fun hdisk hrun => (hcopy.keeps (h.copyHere hdisk) hrun).2
  · exact Action.replays_tell_bind (Action.replays_pure _)

/-! ### Builds -/

/-- The stylesheet comes out the same as long as only what is inside the output directory changes,
    once that was made. -/
def CompilesOutside (tools : Toolchain) (layout : SiteLayout) (before : Disk) : Prop :=
  ∀ place disk other, before.PathLeads layout.output place →
    Building (readyDisk layout before) place disk → Building (readyDisk layout before) place other →
    tools.stylesheet other layout.stylesheet = tools.stylesheet disk layout.stylesheet

/-- A compiler that reads one file of the source, and nothing else, does not read what is inside the
    output directory. -/
theorem compilesOutside_of_readText {before : Disk} {name : String}
    (hseparate : Separate before layout.source layout.output) (hname : IsName name)
    (hpath : layout.stylesheet = layout.source.join name)
    (compile : Except IoError String → Except String String)
    (hreads : ∀ disk, tools.stylesheet disk layout.stylesheet =
      compile (disk.readText layout.stylesheet)) : CompilesOutside tools layout before := by
  intro place disk other hleads hdisk hother
  have hgrows := (before.makeDirsUpTo_changes layout.output.text.length layout.output).grows
  have hlinks := (hseparate.noLinks place hleads).grows hgrows
  have hpasses : PassesBy (readyDisk layout before) layout.stylesheet place := by
    rw [hpath]
    exact ((hseparate.passesBy place hleads).grows hgrows).join hname
  rw [hreads, hreads, hdisk.readText_eq hother hlinks hpasses]

/-- Once the output directory was made, a build finds nothing to be made for it. -/
theorem makeOutput_run {ε : Type} {onError : IoError → ε} {session : Session}
    (h : OutputMade ready layout place) (hdisk : Building ready place session.disk) :
    (Action.makeDirs onError layout.output : Action ε Unit).run session = .ok () session :=
  Action.run_makeDirs (h.outputReady hdisk).stands

/-- **Builds.** Once the output directory was made, a build can be done again. -/
theorem buildSite_replays (h : OutputMade ready config.layout place)
    (hstyle : ∀ disk other, Building ready place disk → Building ready place other →
      tools.stylesheet other config.layout.stylesheet =
        tools.stylesheet disk config.layout.stylesheet) :
    Action.Replays (Building ready place) (Building ready place) (buildSite tools config) := by
  have hdirs : Action.Replays (Building ready place) (Building ready place)
      (Action.makeDirs (BuildError.write config.layout.output) config.layout.output) := by
    constructor
    · intro session value after hdisk hrun
      rw [makeOutput_run h hdisk] at hrun
      cases hrun
      exact ⟨.refl _, hdisk⟩
    · intro session other value after hdisk hdisk' _ hrun
      rw [makeOutput_run h hdisk] at hrun
      cases hrun
      exact ⟨other, makeOutput_run h hdisk', .refl _ _⟩
  refine Action.replays_bind hdirs fun _ _ _ _ _ => ?_
  refine Action.replays_bind (findPages_replays h) fun session pages _ hdisk hfind => ?_
  obtain ⟨paths, hscan, rfl, -⟩ := findPages_ok_iff.mp hfind
  refine Action.replays_bind (loadFragments_replays h) fun _ fragments _ _ _ => ?_
  refine Action.replays_tell_bind ?_
  refine Action.replays_bind (buildPages_replays h hdisk hscan) fun _ _ _ _ _ => ?_
  refine Action.replays_tell_bind ?_
  refine Action.replays_bind (buildStylesheet_replays h hstyle) fun _ _ _ _ _ => ?_
  refine Action.replays_tell_bind ?_
  refine Action.replays_bind (bundleScripts_replays h) fun _ scripts _ _ _ => ?_
  refine Action.replays_tell_bind ?_
  exact Action.replays_bind (copyAssets_replays h) fun _ assets _ _ _ => Action.replays_pure _

/-- Builds in a row, with what each of them made. The first one that fails ends them. -/
def buildTimes (tools : Toolchain) (config : SiteConfig) :
    Nat → Action BuildError (List BuildResult)
  | 0 => return []
  | count + 1 => do
    let result ← buildSite tools config
    let more ← buildTimes tools config count
    return result :: more

variable {result : BuildResult} {after : Session}

/-- **One more build.** On a disk that holds what a build left, a further build returns the same and
    changes nothing. -/
theorem rebuild_step {start : Session} (h : OutputMade ready config.layout place)
    (hstyle : ∀ disk other, Building ready place disk → Building ready place other →
      tools.stylesheet other config.layout.stylesheet =
        tools.stylesheet disk config.layout.stylesheet)
    (hstart : Building ready place start.disk)
    (hrun : (buildSite tools config).run start = .ok result after) (other : Session)
    (hother : Building ready place other.disk)
    (hsame : Disk.AgreeOn (fun _ => True) after.disk other.disk) :
    ∃ later, (buildSite tools config).run other = .ok result later ∧
      Building ready place later.disk ∧ Disk.AgreeOn (fun _ => True) after.disk later.disk := by
  have hreplays := buildSite_replays h hstyle
  obtain ⟨later, hlater, hredone⟩ := hreplays.again hstart hother hsame.grows hrun
  obtain ⟨hgrows, hbuilding⟩ := hreplays.keeps hother hlater
  exact ⟨later, hlater, hbuilding, hredone.agreeOn hgrows hsame⟩

/-- **Building again.** If a build succeeds, then any number of further builds do, each with the
    same result, and the disk stays as the first one left it. The source must be separate from the
    output, and the stylesheet compiler must not read what is inside the output directory. -/
theorem rebuild_idempotent (tools : Toolchain) (config : SiteConfig) {before : Disk}
    (wf : before.WellFormed)
    (hseparate : Separate before config.layout.source config.layout.output)
    (hstyle : CompilesOutside tools config.layout before) {log : List Event} {result : BuildResult}
    {after : Session} (hrun : (buildSite tools config).run ⟨before, log⟩ = .ok result after)
    (count : Nat) :
    ∃ final, (buildTimes tools config count).run after = .ok (List.replicate count result) final ∧
      Disk.AgreeOn (fun _ => True) after.disk final.disk := by
  obtain ⟨place, hleads, hmade⟩ := outputMade_of_build wf hseparate hrun
  have hstyle' := fun disk other => hstyle place disk other hleads
  -- The first build goes as one that finds the output directory made.
  obtain ⟨_, made, hdirs, hrest⟩ := Action.run_bind_ok_iff.mp hrun
  obtain ⟨-, rfl⟩ := Action.makeDirs_ok_iff.mp hdirs
  have hready : Building (readyDisk config.layout before) place
      (readyDisk config.layout before) := .refl _ _
  have hfirst : (buildSite tools config).run ⟨readyDisk config.layout before, log⟩ =
      .ok result after :=
    (Action.run_bind_of_ok (makeOutput_run hmade hready)).trans hrest
  have hafter := ((buildSite_replays hmade hstyle').keeps hready hfirst).2
  suffices hmore : ∀ other : Session, Building (readyDisk config.layout before) place other.disk →
      Disk.AgreeOn (fun _ => True) after.disk other.disk →
      ∃ final, (buildTimes tools config count).run other =
        .ok (List.replicate count result) final ∧
        Disk.AgreeOn (fun _ => True) after.disk final.disk from
    hmore after hafter (.refl _ _)
  induction count with
  | zero => exact fun other _ hsame => ⟨other, rfl, hsame⟩
  | succ count ih =>
    intro other hother hsame
    obtain ⟨later, hlater, hbuilding, hsame'⟩ :=
      rebuild_step hmade hstyle' hready hfirst other hother hsame
    obtain ⟨final, hfinal, hend⟩ := ih later hbuilding hsame'
    exact ⟨final, Action.run_bind_ok_iff.mpr ⟨result, later, hlater,
      Action.run_bind_ok_iff.mpr ⟨_, final, hfinal, rfl⟩⟩, hend⟩

/-- A compiler for stylesheets that are plain CSS already. -/
def readingTools : Toolchain :=
  { plainTools with stylesheet := fun disk path => (disk.readText path).mapError IoError.message }

/-- The site with two scripts, with a stylesheet and two pages of the same key. An older page is in
    its output. -/
def rebuiltSite : Disk :=
  { scriptSite with
    nodes := scriptSite.nodes ++
      [(["index.md", "pages", "src"], .file "y".toUTF8),
        (["style.css", "src"], .file "a \x7b\n  b: c;\n\x7d\n".toUTF8),
        (["dest"], .dir), (["old.html", "dest"], .file .empty)] }

/-- The site is built again and again, and stays as it is. -/
theorem rebuild_idempotent_pages :
    let build := buildSite readingTools (plainConfig ⟨"dest"⟩)
    ∃ result after, build.run ⟨rebuiltSite, []⟩ = .ok result after ∧
      ∀ count, ∃ final,
        (buildTimes readingTools (plainConfig ⟨"dest"⟩) count).run after =
          .ok (List.replicate count result) final ∧
        Disk.AgreeOn (fun _ => True) after.disk final.disk := by
  intro build
  have wf : rebuiltSite.WellFormed := by
    refine ⟨?_, ?_, ?_⟩ <;> decide +kernel
  have hno : ∀ location, rebuiltSite.NoLinksBelow location :=
    Disk.noLinksBelow_of_nodes (by simp [rebuiltSite, scriptSite, smallSite, Part.all])
  have hsource : rebuiltSite.PathLeads ⟨"src"⟩ ["src"] :=
    Disk.leads_down fun path => hno [] "src" [] path List.suffix_rfl
  have houtput : rebuiltSite.PathLeads ⟨"dest"⟩ ["dest"] :=
    Disk.leads_down fun path => hno [] "dest" [] path List.suffix_rfl
  have hway : ∀ passed, rebuiltSite.PathPasses ⟨"src"⟩ passed → ¬ Disk.Within ["dest"] passed := by
    intro passed hpasses
    rcases Disk.Passes.eq_of_down (hno []) hpasses with rfl | rfl <;> rw [Disk.Within] <;> decide
  have hseparate : Separate rebuiltSite (plainConfig ⟨"dest"⟩).layout.source
      (plainConfig ⟨"dest"⟩).layout.output :=
    separate_of_noLinks hno hsource houtput hway (by decide) (by decide)
  have hstyle : CompilesOutside readingTools (plainConfig ⟨"dest"⟩).layout rebuiltSite :=
    compilesOutside_of_readText hseparate (by decide : IsName "style.css") rfl
      (·.mapError IoError.message) fun _ => rfl
  have hsucceeds : failure? (build.run ⟨rebuiltSite, []⟩) = none := by decide +kernel
  obtain ⟨result, after, hrun⟩ := failure?_eq_none_iff.mp hsucceeds
  exact ⟨result, after, hrun, rebuild_idempotent readingTools (plainConfig ⟨"dest"⟩) wf hseparate
    hstyle hrun⟩

end PageLoom
