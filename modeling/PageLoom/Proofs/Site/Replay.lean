import PageLoom.Proofs.Site.Reorder

namespace PageLoom

/-!
# Doing it again

What was done once can be done again on the disk that it left, or on one that has grown from it: the
same is read, since nothing that is read was changed, and the same is written, since every file and
directory is there already.

* `Disk.Redone` — work on two disks that came out alike, wherever it did anything;
* `Action.Replays` — an action that can be done again, with the ways to put such actions together;
* `writeOutput_replays` — a file in the output directory;
* `loadFragments_replays`, `buildPages_replays`, `bundleScripts_replays`, … — the stages of a build.
-/

/-! ### Work on two disks -/

namespace Disk

variable {start done next other again last : Disk}

/-- Work on two disks came out alike: every place holds the same after it, or it was touched on
    neither disk. -/
def Redone (start done other again : Disk) : Prop :=
  ∀ location, again.node? location = done.node? location ∨
    done.node? location = start.node? location ∧ again.node? location = other.node? location

/-- No work comes out alike. -/
theorem Redone.refl (start other : Disk) : Redone start start other other :=
  fun _ => .inr ⟨rfl, rfl⟩

/-- One work after the other comes out alike. -/
theorem Redone.trans (h : Redone start done other again) (h' : Redone done next again last) :
    Redone start next other last := by
  intro location
  rcases h' location with hsame | ⟨hkept, hkept'⟩
  · exact .inl hsame
  · rw [hkept, hkept']
    exact h location

/-- The same node that is put on two disks comes out alike. -/
theorem Redone.put (start other : Disk) (name : String) (up : Location) (node : Node) :
    Redone start (start.put (name :: up) node) other (other.put (name :: up) node) := by
  intro location
  by_cases hplace : location = name :: up
  · rw [hplace, node?_put_self, node?_put_self]
    exact .inl rfl
  · exact .inr ⟨node?_put_of_ne _ _ hplace, node?_put_of_ne _ _ hplace⟩

/-- **Nothing new.** Work that is done again on what it left changes nothing. -/
theorem Redone.agreeOn (h : Redone start done other again) (hgrows : other.Grows again)
    (hsame : AgreeOn (fun _ => True) done other) : AgreeOn (fun _ => True) done again := by
  refine ⟨hgrows.home.trans hsame.home, fun location _ => ?_⟩
  rcases h location with halike | ⟨-, hkept⟩
  · exact halike
  · exact hkept.trans (hsame.node location trivial)

/-- A disk that agrees with another one everywhere has grown from it. -/
theorem AgreeOn.grows (h : AgreeOn (fun _ => True) done other) : done.Grows other := by
  refine ⟨h.home, fun location => ?_⟩
  rw [h.node location trivial]
  exact .same _

/-- Where a file was, there is one on a disk that grew. -/
theorem Grows.exists_file (h : done.Grows other) {location : Location} {bytes : ByteArray}
    (hfile : done.node? location = some (.file bytes)) :
    ∃ bytes', other.node? location = some (.file bytes') := by
  have hbecomes := h.becomes location
  rw [hfile] at hbecomes
  generalize other.node? location = now at hbecomes
  cases hbecomes with
  | same => exact ⟨bytes, rfl⟩
  | rewritten _ new => exact ⟨new, rfl⟩

/-- The file of an entry that was written can be written again: on a disk that has grown since then
    there is a file already. -/
theorem IsEntry.write_redone {path : Path} {up : Location} {name : String} {bytes : ByteArray}
    (h : start.IsEntry path up name) (h' : other.IsEntry path up name)
    (hgrows : done.Grows other) (hwrite : start.write path bytes = .ok done) :
    ∃ again, other.write path bytes = .ok again ∧ Redone start done other again := by
  obtain ⟨⟨hslash, hfault, hsize, -⟩, hdone⟩ := h.write_ok_iff.mp hwrite
  have hfile : done.node? (name :: up) = some (.file bytes) := by
    rw [hdone, node?_put_self]
  have hfits := hgrows.exists_file hfile
  refine ⟨_, h'.write_ok_iff.mpr ⟨⟨hslash, hfault, hsize, .inr hfits⟩, rfl⟩, ?_⟩
  rw [hdone]
  exact .put _ _ _ _ _

end Disk

/-! ### Actions -/

namespace Action

variable {ε δ α β : Type} {pre mid post inv : Disk → Prop}

/-- An action can be done again, on any disk that has grown from what it left. It returns the same,
    and comes out alike. Before the action `pre` is needed of both disks, and after it `post`
    holds. -/
structure Replays (pre post : Disk → Prop) (action : Action ε α) : Prop where
  keeps : ∀ {session : Session} {value : α} {after : Session}, pre session.disk →
    action.run session = .ok value after → session.disk.Grows after.disk ∧ post after.disk
  again : ∀ {session other : Session} {value : α} {after : Session}, pre session.disk →
    pre other.disk → after.disk.Grows other.disk → action.run session = .ok value after →
    ∃ later, action.run other = .ok value later ∧
      Disk.Redone session.disk after.disk other.disk later.disk

theorem replays_pure (value : α) : Replays inv inv (pure value : Action ε α) := by
  constructor
  · intro session found after hinv hrun
    cases hrun
    exact ⟨.refl _, hinv⟩
  · intro session other found after _ _ _ hrun
    cases hrun
    exact ⟨other, rfl, .refl _ _⟩

theorem replays_throw (e : ε) : Replays pre post (throw e : Action ε α) := by
  constructor
  · intro session value after _ hrun
    cases hrun
  · intro session other value after _ _ _ hrun
    cases hrun

theorem replays_tell (event : Event) : Replays inv inv (tell event : Action ε Unit) := by
  constructor
  · intro session value after hinv hrun
    cases hrun
    exact ⟨.refl _, hinv⟩
  · intro session other value after _ _ _ hrun
    cases hrun
    exact ⟨_, rfl, .refl _ _⟩

/-- What is read can be read again, if it is the same on both disks. -/
theorem replays_look {onError : δ → ε} {read : Disk → Except δ α}
    (h : ∀ disk other, inv disk → inv other → read other = read disk) :
    Replays inv inv (look onError read) := by
  constructor
  · intro session value after hinv hrun
    obtain ⟨-, rfl⟩ := look_ok_iff.mp hrun
    exact ⟨.refl _, hinv⟩
  · intro session other value after hinv hinv' _ hrun
    obtain ⟨hread, rfl⟩ := look_ok_iff.mp hrun
    exact ⟨other, look_ok_iff.mpr ⟨(h _ _ hinv hinv').trans hread, rfl⟩, .refl _ _⟩

/-- **One after the other.** Two actions can be done again if each of them can. The second one may
    count on what the first one returned. -/
theorem replays_bind {first : Action ε α} {next : α → Action ε β} (h : Replays pre mid first)
    (h' : ∀ session value middle, pre session.disk → first.run session = .ok value middle →
      Replays mid post (next value)) :
    Replays pre post (first >>= next) := by
  constructor
  · intro session value after hpre hrun
    obtain ⟨found, middle, hfirst, hnext⟩ := run_bind_ok_iff.mp hrun
    obtain ⟨hgrows, hmid⟩ := h.keeps hpre hfirst
    obtain ⟨hgrows', hpost⟩ := (h' _ _ _ hpre hfirst).keeps hmid hnext
    exact ⟨hgrows.trans hgrows', hpost⟩
  · intro session other value after hpre hpre' hother hrun
    obtain ⟨found, middle, hfirst, hnext⟩ := run_bind_ok_iff.mp hrun
    have hreplays := h' _ _ _ hpre hfirst
    obtain ⟨-, hmid⟩ := h.keeps hpre hfirst
    obtain ⟨hgrows, -⟩ := hreplays.keeps hmid hnext
    -- The disk has grown from what the first action left, too.
    obtain ⟨middle', hfirst', hredone⟩ := h.again hpre hpre' (hgrows.trans hother) hfirst
    obtain ⟨hgrows', hmid'⟩ := h.keeps hpre' hfirst'
    obtain ⟨later, hnext', hredone'⟩ := hreplays.again hmid hmid' (hother.trans hgrows') hnext
    exact ⟨later, run_bind_ok_iff.mpr ⟨found, middle', hfirst', hnext'⟩, hredone.trans hredone'⟩

/-- What is told before an action does not matter. -/
theorem replays_tell_bind {event : Event} {action : Action ε α} (h : Replays pre post action) :
    Replays pre post (tell event >>= fun _ => action) :=
  replays_bind (replays_tell event) fun _ _ _ _ _ => h

theorem replays_adapt {onError : δ → ε} {action : Action δ α} (h : Replays pre post action) :
    Replays pre post (EStateM.adaptExcept onError action) := by
  constructor
  · intro session value after hpre hrun
    exact h.keeps hpre (run_adapt_ok_iff.mp hrun)
  · intro session other value after hpre hpre' hother hrun
    obtain ⟨later, hlater, hredone⟩ := h.again hpre hpre' hother (run_adapt_ok_iff.mp hrun)
    exact ⟨later, run_adapt_ok_iff.mpr hlater, hredone⟩

/-- An action that can be done again can be where more is known before it, and with what is known
    after it then. -/
theorem Replays.weaken {pre' post' : Disk → Prop} {action : Action ε α}
    (h : Replays pre post action) (hpre : ∀ disk, pre' disk → pre disk)
    (hpost : ∀ {session : Session} {value : α} {after : Session}, pre' session.disk →
      action.run session = .ok value after → post' after.disk) : Replays pre' post' action :=
  ⟨fun hdisk hrun => ⟨(h.keeps (hpre _ hdisk) hrun).1, hpost hdisk hrun⟩,
    fun hdisk hdisk' hother hrun => h.again (hpre _ hdisk) (hpre _ hdisk') hother hrun⟩

/-- A loop can be done again if its rounds can. -/
theorem replays_mapM {f : α → Action ε β} {entries : List α}
    (h : ∀ entry ∈ entries, Replays inv inv (f entry)) : Replays inv inv (entries.mapM f) := by
  induction entries with
  | nil => exact replays_pure []
  | cons entry entries ih =>
    rw [List.mapM_cons]
    obtain ⟨hfirst, hmore⟩ := List.forall_mem_cons.mp h
    refine replays_bind hfirst fun _ value _ _ _ => ?_
    exact replays_bind (ih hmore) fun _ values _ _ _ => replays_pure _

theorem replays_forM {f : α → Action ε Unit} {entries : List α}
    (h : ∀ entry ∈ entries, Replays inv inv (f entry)) : Replays inv inv (entries.forM f) := by
  induction entries with
  | nil => exact replays_pure ()
  | cons entry entries ih =>
    obtain ⟨hfirst, hmore⟩ := List.forall_mem_cons.mp h
    exact replays_bind hfirst fun _ _ _ _ _ => ih hmore

end Action

/-! ### Files in the output -/

variable {ready : Disk} {layout : SiteLayout} {place : Location} {name text : String} {ε : Type}

/-- **Output files.** A file that was written into the output directory can be written again. -/
theorem writeOutput_replays {onError : IoError → ε} (h : OutputMade ready layout place)
    (hname : IsName name) :
    Action.Replays (Building ready place) (Building ready place)
      (Action.writeFile onError (layout.output.join name) text) := by
  constructor
  · intro session value after hdisk hrun
    have hwrote := writeOutput_ok hrun (h.outputReady hdisk) hname
    exact ⟨hwrote.changes.grows, hdisk.wrote hwrote⟩
  · intro session other value after hdisk hdisk' hother hrun
    obtain ⟨parent, hparent, htrims⟩ := layout.output.exists_parent?_join hname
    rw [Action.writeFile_below hparent ((h.outputReady hdisk).stands.trims htrims)] at hrun
    obtain ⟨written, hwrite, rfl⟩ := Action.change_ok_iff.mp hrun
    obtain ⟨again, hwrite', hredone⟩ :=
      (h.isEntry hdisk hname).write_redone (h.isEntry hdisk' hname) hother hwrite
    refine ⟨{ other with disk := again }, ?_, hredone⟩
    rw [Action.writeFile_below hparent ((h.outputReady hdisk').stands.trims htrims)]
    exact Action.change_ok_iff.mpr ⟨again, hwrite', rfl⟩

/-! ### Stages -/

variable {tools : Toolchain} {config : SiteConfig} {fragments : Fragments} {path : Path}

/-- A text of the source can be read again. -/
theorem readText_replays {onError : IoError → ε} (h : OutputMade ready layout place)
    (hpath : PassesBy ready path place) :
    Action.Replays (Building ready place) (Building ready place)
      (Action.look onError (·.readText path)) :=
  Action.replays_look fun _ _ hdisk hdisk' =>
    hdisk.readText_eq hdisk' h.output.noLinks hpath

/-- A scan of the source can be done again. -/
theorem scan_replays {onError : ScanError → ε} {order : ListingOrder} {filter : ExtensionFilter}
    (h : OutputMade ready layout place) (hpath : PassesBy ready path place) :
    Action.Replays (Building ready place) (Building ready place)
      (Action.look onError (·.scan order path filter)) :=
  Action.replays_look fun _ _ hdisk hdisk' =>
    Disk.scan_relist (hdisk.wellFormed h.wellFormed) fun _ hnames =>
      hdisk.list_eq hdisk' h.output.noLinks (hpath.joinAll hnames)

/-- The pages can be found again. -/
theorem findPages_replays (h : OutputMade ready layout place) :
    Action.Replays (Building ready place) (Building ready place) (findPages tools layout) :=
  Action.replays_bind (scan_replays h (h.source.join (by decide)))
    fun _ _ _ _ _ => Action.replays_pure _

/-- A part can be loaded again. -/
theorem loadPart_replays (h : OutputMade ready config.layout place) (part : Part) :
    Action.Replays (Building ready place) (Building ready place) (loadPart config part) := by
  have hpath : PassesBy ready (config.layout.partFile part) place :=
    ((h.source.join (by decide)).join (by cases part <;> decide)).join (by cases part <;> decide)
  refine Action.replays_bind (readText_replays h hpath) fun _ text _ _ _ => ?_
  split
  · exact Action.replays_pure _
  · refine Action.replays_tell_bind ?_
    split
    · exact Action.replays_pure _
    · exact Action.replays_throw _

/-- **Parts.** All parts can be loaded again. -/
theorem loadFragments_replays (h : OutputMade ready config.layout place) :
    Action.Replays (Building ready place) (Building ready place) (loadFragments config) := by
  refine Action.replays_bind (loadPart_replays h .head) fun _ _ _ _ _ => ?_
  refine Action.replays_bind (loadPart_replays h .header) fun _ _ _ _ _ => ?_
  refine Action.replays_bind (loadPart_replays h .sidebar) fun _ _ _ _ _ => ?_
  refine Action.replays_bind (loadPart_replays h .footer) fun _ _ _ _ _ => ?_
  refine Action.replays_bind (loadPart_replays h .script) fun _ _ _ _ _ => ?_
  exact Action.replays_pure _

/-- A page can be built again. -/
theorem buildPage_replays {page : PageSource} (h : OutputMade ready config.layout place)
    (hpage : PageBelow config.layout.output page) (hpath : PassesBy ready page.path place) :
    Action.Replays (Building ready place) (Building ready place)
      (buildPage tools config fragments page) := by
  refine Action.replays_tell_bind ?_
  refine Action.replays_bind (readText_replays h hpath) fun _ text _ _ _ => ?_
  rw [hpage.1]
  exact writeOutput_replays h hpage.2

/-- **Pages.** The pages that a scan found can be built again, also if some have the same key: each
    of them replaces the one before it, as it did. -/
theorem buildPages_replays {disk : Disk} {paths : List Path}
    (h : OutputMade ready config.layout place) (hdisk : Building ready place disk)
    (hscan : disk.scan tools.order config.layout.pagesDir pageFilter = .ok paths) :
    Action.Replays (Building ready place) (Building ready place)
      ((paths.map (PageSource.of · config.layout.output)).forM
        (buildPage tools config fragments)) := by
  refine Action.replays_forM fun page hpage => ?_
  obtain ⟨path, hpath, rfl⟩ := List.mem_map.mp hpage
  obtain ⟨names, hnames, rfl⟩ :=
    exists_joinAll_of_scan (hdisk.wellFormed h.wellFormed) hscan hpath
  exact buildPage_replays h (pageBelow_of _ _) ((h.source.join (by decide)).joinAll hnames)

/-- **Stylesheet.** The stylesheet can be compiled again, if the compiler does not read what is
    inside the output directory. -/
theorem buildStylesheet_replays (h : OutputMade ready layout place)
    (hstyle : ∀ disk other, Building ready place disk → Building ready place other →
      tools.stylesheet other layout.stylesheet = tools.stylesheet disk layout.stylesheet) :
    Action.Replays (Building ready place) (Building ready place)
      (buildStylesheet tools layout) :=
  Action.replays_bind (Action.replays_look hstyle)
    fun _ _ _ _ _ => writeOutput_replays h (by decide)

/-- A script can be loaded again. -/
theorem loadScript_replays (h : OutputMade ready layout place) (hpath : PassesBy ready path place) :
    Action.Replays (Building ready place) (Building ready place) (loadScript path) :=
  Action.replays_tell_bind <| Action.replays_bind (readText_replays h hpath)
    fun _ _ _ _ _ => Action.replays_pure _

/-- **Bundle.** The scripts can be bundled again. -/
theorem bundleScripts_replays (h : OutputMade ready layout place) :
    Action.Replays (Building ready place) (Building ready place) (bundleScripts tools layout) := by
  have hscripts : PassesBy ready layout.scriptsDir place :=
    (h.source.join (by decide)).join (by decide)
  refine Action.replays_bind (scan_replays h hscripts) fun session paths _ hdisk hlook => ?_
  obtain ⟨hscan, -⟩ := Action.look_ok_iff.mp hlook
  have hload : ∀ path ∈ paths, Action.Replays (Building ready place) (Building ready place)
      (loadScript path) := by
    intro path hpath
    obtain ⟨names, hnames, rfl⟩ :=
      exists_joinAll_of_scan (hdisk.wellFormed h.wellFormed) hscan hpath
    exact loadScript_replays h (hscripts.joinAll hnames)
  refine Action.replays_bind (Action.replays_mapM hload) fun _ chunks _ _ _ => ?_
  exact Action.replays_bind (writeOutput_replays h (by decide))
    fun _ _ _ _ _ => Action.replays_pure _

end PageLoom
