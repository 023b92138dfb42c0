import PageLoom.Command.Run
import PageLoom.Proofs.Disk.Fresh
import PageLoom.Proofs.Site.Session

namespace PageLoom

/-!
# New sites

Setting up a site creates eleven files, each one unless its path is there already. Directories are
made before each file, and these may bring a path into reach that steps up from one of them: then
an older file is lost. Only the path of the configuration can do that.

* `sitePaths` — the paths of the files of a new site;
* `createFile_cases` — what creating one file does;
* `Overruns` — a path of a configuration that was not there, and leads to a file none the less;
* `runInit_changes`, `runInit_keeps`, `runInit_complete` — what a run changes, keeps and creates;
* `init_keeps_existing` — all of it, and `init_overruns_file` — a file that is lost.
-/

/-- The path of the configuration of a new site. -/
def siteConfigPath (configPath : Path) : Path :=
  (⟨"."⟩ : Path).join configPath.text

/-- The path of the source directory of a new site. -/
def siteSource : Path :=
  (⟨"."⟩ : Path).join "src"

/-- The paths of the files of a new site, below its source directory. -/
def scaffoldPaths : List Path :=
  Scaffold.files.map fun file => siteSource.join file.1

/-- The paths of all files of a new site. -/
def sitePaths (configPath : Path) : List Path :=
  siteConfigPath configPath :: scaffoldPaths

/-- The path of the configuration was not there since a directory on it was missing, but from that
    directory it steps up, and leads to the place. -/
def Overruns (disk : Disk) (configPath : Path) (location : Location) : Prop :=
  .up ∈ configPath.steps ∧ disk.isThere (siteConfigPath configPath) = false ∧
    disk.PathLeads (siteConfigPath configPath) location

variable {disk before : Disk} {configPath path : Path} {text : String} {overwrite : Bool}
  {session after : Session}

/-! ### Single files -/

/-- Writing a file fails and changes nothing, or it is written and told. -/
theorem run_write_tell (path : Path) (text : String) (session : Session) :
    (∃ e, (Action.change (.write path) (·.write path text.toUTF8) >>= fun _ =>
        Action.tell (.created path) : Action CommandError Unit).run session = .error e session) ∨
    ∃ written, session.disk.write path text.toUTF8 = .ok written ∧
      (Action.change (.write path) (·.write path text.toUTF8) >>= fun _ =>
        Action.tell (.created path) : Action CommandError Unit).run session =
        .ok () ⟨written, session.log ++ [.created path]⟩ := by
  cases hwrite : session.disk.write path text.toUTF8 with
  | error e =>
    have hfails : (Action.change (.write path) (·.write path text.toUTF8) :
        Action CommandError Unit).run session = .error (.write path e) session :=
      Action.change_error_iff.mpr ⟨e, hwrite, rfl, rfl⟩
    exact .inl ⟨_, Action.run_bind_error_iff.mpr (.inl hfails)⟩
  | ok written =>
    refine .inr ⟨written, rfl, ?_⟩
    have hdone : (Action.change (.write path) (·.write path text.toUTF8) :
        Action CommandError Unit).run session = .ok () { session with disk := written } :=
      Action.change_ok_iff.mpr ⟨written, hwrite, rfl⟩
    rw [Action.run_bind_of_ok hdone]
    rfl

/-- **One file.** A file that is there is kept. Otherwise the directories above it are made, and
    after that the file is written, unless something fails. -/
theorem createFile_cases (overwrite : Bool) (path : Path) (text : String) (session : Session) :
    (session.disk.isThere path = true ∧ overwrite = false ∧
      (createFile overwrite path text).run session = .ok () session) ∨
    (session.disk.isThere path = false ∨ overwrite = true) ∧
      ((∃ e, (createFile overwrite path text).run session =
          .error e { session with disk := (session.disk.makeParents path).2 }) ∨
       ∃ middle written, session.disk.makeParents path = (.ok (), middle) ∧
        middle.write path text.toUTF8 = .ok written ∧
        (createFile overwrite path text).run session =
          .ok () ⟨written, session.log ++ [.created path]⟩) := by
  rw [createFile, Action.run_bind_of_ok Action.run_get, Disk.makeParents]
  by_cases hkept : (session.disk.isThere path && !overwrite) = true
  · rw [if_pos hkept]
    simp only [Bool.and_eq_true, Bool.not_eq_true'] at hkept
    exact .inl ⟨hkept.1, hkept.2, rfl⟩
  rw [if_neg hkept]
  refine .inr ⟨by simpa [← Bool.not_eq_true, Classical.or_iff_not_imp_left] using hkept, ?_⟩
  cases hparent : path.parent? with
  | none =>
    obtain hfails | ⟨written, hwrite, hdone⟩ := run_write_tell path text session
    · exact .inl hfails
    · exact .inr ⟨session.disk, written, rfl, hwrite, hdone⟩
  | some parent =>
    simp only
    cases hmade : session.disk.makeDirs parent with
    | mk result middle =>
      cases result with
      | error e =>
        have hfails : (Action.makeDirs (.makeDirs parent) parent : Action CommandError Unit).run
            session = .error (.makeDirs parent e) { session with disk := middle } :=
          Action.makeDirs_error_iff.mpr ⟨e, by rw [hmade], rfl, by rw [hmade]⟩
        exact .inl ⟨_, Action.run_bind_error_iff.mpr (.inl hfails)⟩
      | ok =>
        have hdone : (Action.makeDirs (.makeDirs parent) parent : Action CommandError Unit).run
            session = .ok () { session with disk := middle } :=
          Action.makeDirs_ok_iff.mpr ⟨by rw [hmade], by rw [hmade]⟩
        rw [Action.run_bind_of_ok hdone]
        obtain hfails | ⟨written, hwrite, hdone⟩ :=
          run_write_tell path text { session with disk := middle }
        · exact .inl hfails
        · exact .inr ⟨middle, written, rfl, hwrite, hdone⟩

/-- Creating a file makes directories above its path. After that the file is written where its path
    leads then, so what holds of that place holds of all that is written. -/
theorem createFile_changes_of {files : Location → Prop} (overwrite : Bool) (path : Path)
    (text : String) (session : Session)
    (h : ∀ middle written place, session.disk.isThere path = false ∨ overwrite = true →
      session.disk.makeParents path = (.ok (), middle) →
      middle.write path text.toUTF8 = .ok written → middle.PathLeads path place → files place) :
    session.disk.Changes (session.disk.LeadsAbove path) files
      (finalDisk ((createFile overwrite path text).run session)) := by
  have hparents : session.disk.Changes (session.disk.LeadsAbove path) files
      (session.disk.makeParents path).2 :=
    (session.disk.makeParents_changes path).mono_files fun _ hno => hno.elim
  obtain ⟨-, -, hrun⟩ | ⟨hthere, ⟨e, hrun⟩ | ⟨middle, written, hmade, hwrite, hrun⟩⟩ :=
    createFile_cases overwrite path text session
  · rw [hrun]
    exact .refl _
  · rw [hrun]
    exact hparents
  · rw [hmade] at hparents
    obtain ⟨place, hleads, hfits, hput⟩ := Disk.write_ok hwrite
    rw [hrun, finalDisk, hput]
    refine hparents.trans ((Disk.changes_put_file hfits _).mono (fun _ hno => hno.elim) ?_)
    rintro _ rfl
    exact h middle written _ hthere hmade hwrite hleads

/-- Creating a file makes directories above its path and writes the file. -/
theorem createFile_changes (overwrite : Bool) (path : Path) (text : String) (session : Session) :
    session.disk.Changes (session.disk.LeadsAbove path) (session.disk.PathLeads path)
      (finalDisk ((createFile overwrite path text).run session)) := by
  refine createFile_changes_of overwrite path text session
    fun middle written place _ hmade _ hleads => ?_
  have hgrows := (session.disk.makeParents_changes path).grows
  rw [hmade] at hgrows
  exact (hgrows.pathLeads_iff path).mp hleads

/-- **New files.** Where a path that never steps up is not there, creating its file writes only
    where nothing was. -/
theorem createFile_fresh (session : Session) (wf : session.disk.WellFormed)
    (hup : .up ∉ path.steps) (text : String) :
    session.disk.Changes (session.disk.LeadsAbove path) (session.disk.node? · = none)
      (finalDisk ((createFile false path text).run session)) := by
  refine createFile_changes_of false path text session
    fun middle written place hthere hmade hwrite hleads => ?_
  have hthere : session.disk.isThere path = false := by simpa using hthere
  exact Disk.write_fresh wf hup hthere hmade hwrite hleads

/-- A file that was created, or kept, is there. -/
theorem createFile_ok (h : (createFile overwrite path text).run session = .ok () after) :
    after.disk.isThere path = true := by
  obtain ⟨hthere, -, hrun⟩ | ⟨-, ⟨e, hrun⟩ | ⟨middle, written, -, hwrite, hrun⟩⟩ :=
    createFile_cases overwrite path text session
  · rw [hrun] at h
    cases h
    exact hthere
  · rw [hrun] at h
    cases h
  · rw [hrun] at h
    cases h
    exact Disk.isThere_of_write hwrite

/-! ### The files of a site -/

/-- After a source tree that is there nothing is created, unless that is asked for. -/
theorem createSite_eq (configPath : Path) (overwrite : Bool) (session : Session) :
    (createSite configPath overwrite).run session =
      if session.disk.isThere siteSource && !overwrite then
        .ok () { session with log := session.log ++ [.sourceExists] }
      else
        (createFile overwrite (siteConfigPath configPath) (Scaffold.config (.ofPath configPath)) >>=
          fun _ => Scaffold.files.forM fun file =>
            createFile overwrite (siteSource.join file.1) file.2).run session := by
  rw [createSite, Action.run_bind_of_ok Action.run_get]
  show EStateM.run (if (session.disk.isThere siteSource && !overwrite) = true then _ else _) _ = _
  split <;> rfl

/-- What a command tells before and after its work changes no disk. -/
theorem finalDisk_runInit (configPath : Path) (overwrite : Bool) (log : List Event) :
    finalDisk ((runInit configPath overwrite).run ⟨disk, log⟩) =
      finalDisk ((createSite configPath overwrite).run ⟨disk, log ++ [.initializing]⟩) := by
  rw [runInit, Action.run_tell_bind]
  cases hrun : (createSite configPath overwrite).run ⟨disk, log ++ [.initializing]⟩ with
  | ok value after =>
    rw [Action.run_bind_of_ok hrun]
    rfl
  | error e after =>
    rw [Action.run_bind_error_iff.mpr (.inl hrun)]

/-- No path of a scaffold steps up. -/
theorem up_not_mem_scaffoldPaths : ∀ path ∈ scaffoldPaths, .up ∉ path.steps := by
  decide +kernel

/-- The path of the configuration steps up where the path in the command does. -/
theorem up_mem_siteConfigPath :
    .up ∈ (siteConfigPath configPath).steps ↔ .up ∈ configPath.steps := by
  rw [siteConfigPath, Path.join]
  split
  · rfl
  have hsegments : segments ("." ++ "/" ++ configPath.text).toList =
      ['.'] :: segments configPath.text.toList := by
    rw [String.toList_append]
    exact segments_append_slash ['.'] configPath.text.toList
  have hnil := segments_ne_nil configPath.text.toList
  simp only [show (".".isEmpty || decide (".".toList.getLast? = some '/')) = false by decide,
    Bool.false_eq_true, if_false, Path.steps, hsegments]
  rw [Path.stepsOf_cons fun h => by cases h]
  simp [stepOf]

/-- What the creation of each file preserves, setting up a site preserves. -/
theorem preserves_createSite {inv : Disk → Prop}
    (h : ∀ path ∈ sitePaths configPath, ∀ text,
      Action.Preserves inv (createFile overwrite path text)) :
    Action.Preserves inv (createSite configPath overwrite) := by
  intro session hinv
  rw [createSite_eq]
  split
  · exact hinv
  refine Action.preserves_bind (h _ List.mem_cons_self _) (fun _ _ middle _ _ hmiddle => ?_)
    session hinv
  refine Action.preserves_forM (fun file hfile => ?_) middle hmiddle
  exact h _ (List.mem_cons_of_mem _ (List.mem_map.mpr ⟨file, hfile, rfl⟩)) _

/-- Where setting up a site makes directories. -/
def SiteDirs (disk : Disk) (configPath : Path) (location : Location) : Prop :=
  ∃ path ∈ sitePaths configPath, disk.LeadsAbove path location

/-- Where setting up a site writes files. -/
def SiteFiles (disk : Disk) (configPath : Path) (location : Location) : Prop :=
  ∃ path ∈ sitePaths configPath, disk.PathLeads path location

/-- **Changes.** Setting up a site makes directories above the eleven paths, and writes files where
    they lead. -/
theorem runInit_changes (disk : Disk) (configPath : Path) (overwrite : Bool) (log : List Event) :
    disk.Changes (SiteDirs disk configPath) (SiteFiles disk configPath)
      (finalDisk ((runInit configPath overwrite).run ⟨disk, log⟩)) := by
  rw [finalDisk_runInit]
  refine preserves_createSite (fun path hpath text session hinv => hinv.trans ?_) _ (.refl disk)
  refine (createFile_changes overwrite path text session).mono (fun location habove => ?_)
    fun location hleads => ?_
  · exact ⟨path, hpath, hinv.grows.leadsAbove_iff.mp habove⟩
  · exact ⟨path, hpath, (hinv.grows.pathLeads_iff path).mp hleads⟩

/-- Where setting up a site that overwrites nothing may write: where nothing was, or where the path
    of the configuration overruns. -/
def NewFiles (disk : Disk) (configPath : Path) (location : Location) : Prop :=
  disk.node? location = none ∨ Overruns disk configPath location

/-- Creating the configuration writes where nothing was, or where its path overruns. -/
theorem createFile_config (wf : disk.WellFormed) (configPath : Path) (text : String)
    (log : List Event) :
    disk.Changes (SiteDirs disk configPath) (NewFiles disk configPath)
      (finalDisk ((createFile false (siteConfigPath configPath) text).run ⟨disk, log⟩)) := by
  have hdirs : ∀ location, disk.LeadsAbove (siteConfigPath configPath) location →
      SiteDirs disk configPath location :=
    fun location habove => ⟨_, List.mem_cons_self, habove⟩
  by_cases hup : .up ∈ configPath.steps
  · obtain ⟨-, -, hrun⟩ | ⟨hthere, -⟩ :=
      createFile_cases false (siteConfigPath configPath) text ⟨disk, log⟩
    · rw [hrun]
      exact .refl disk
    · have hthere : disk.isThere (siteConfigPath configPath) = false := by simpa using hthere
      exact (createFile_changes false _ text ⟨disk, log⟩).mono hdirs
        fun location hleads => .inr ⟨hup, hthere, hleads⟩
  · have hfresh := createFile_fresh ⟨disk, log⟩ wf
      (mt up_mem_siteConfigPath.mp hup) text
    exact hfresh.mono hdirs fun location hnone => .inl hnone

/-- Creating the files of the source tree writes only where nothing was. -/
theorem createFiles_fresh (session : Session) (configPath : Path) (wf : session.disk.WellFormed) :
    session.disk.Changes (SiteDirs session.disk configPath) (session.disk.node? · = none)
      (finalDisk ((Scaffold.files.forM fun file =>
        createFile false (siteSource.join file.1) file.2).run session)) := by
  suffices hkeep : ∀ file ∈ Scaffold.files, Action.Preserves
      (session.disk.Changes (SiteDirs session.disk configPath) (session.disk.node? · = none))
      (createFile false (siteSource.join file.1) file.2) from
    Action.preserves_forM hkeep session (.refl _)
  intro file hfile middle hinv
  refine hinv.trans ?_
  have hpath : siteSource.join file.1 ∈ scaffoldPaths := List.mem_map.mpr ⟨file, hfile, rfl⟩
  have hfresh := createFile_fresh middle (hinv.wellFormed wf)
    (up_not_mem_scaffoldPaths _ hpath) file.2
  refine hfresh.mono (fun location habove => ?_) fun location hnone => ?_
  · exact ⟨_, List.mem_cons_of_mem _ hpath, hinv.grows.leadsAbove_iff.mp habove⟩
  · exact hinv.grows.node?_eq_none hnone

/-- **Kept.** Setting up a site that overwrites nothing writes files only where nothing was, or
    where the path of the configuration overruns. -/
theorem runInit_keeps (wf : disk.WellFormed) (configPath : Path) (log : List Event) :
    disk.Changes (SiteDirs disk configPath) (NewFiles disk configPath)
      (finalDisk ((runInit configPath false).run ⟨disk, log⟩)) := by
  rw [finalDisk_runInit, createSite_eq]
  split
  · exact .refl disk
  -- The configuration comes first, so it is about the disk before.
  generalize log ++ [.initializing] = log
  have hconfig := createFile_config wf configPath (Scaffold.config (.ofPath configPath)) log
  cases hrun : (createFile false (siteConfigPath configPath)
      (Scaffold.config (.ofPath configPath))).run ⟨disk, log⟩ with
  | error e middle =>
    rw [hrun] at hconfig
    rw [Action.run_bind_error_iff.mpr (.inl hrun)]
    exact hconfig
  | ok value middle =>
    rw [hrun] at hconfig
    rw [Action.run_bind_of_ok hrun]
    have hfiles := createFiles_fresh middle configPath
      (hconfig.wellFormed wf)
    refine hconfig.trans (hfiles.mono (fun location hdirs => ?_) fun location hnone => ?_)
    · obtain ⟨path, hpath, habove⟩ := hdirs
      exact ⟨path, hpath, hconfig.grows.leadsAbove_iff.mp habove⟩
    · exact .inl (hconfig.grows.node?_eq_none hnone)

/-! ### Complete sites -/

/-- A directory on the way to what is there is there. -/
theorem Disk.isThere_of_longer {long short : Path} (rest : List Step)
    (habs : short.isAbsolute = long.isAbsolute) (hfault : short.fault? = none)
    (hsteps : long.steps = short.steps ++ rest) (hrest : rest ≠ [])
    (h : disk.isThere long = true) : disk.isThere short = true := by
  obtain ⟨location, node, hstatus⟩ := Disk.isThere_iff.mp h
  obtain ⟨-, htravel⟩ := Disk.status_ok_iff_travel.mp hstatus
  have horigin : short.origin disk.home = long.origin disk.home := by
    rw [Path.origin, Path.origin, habs]
  rw [hsteps, ← horigin] at htravel
  obtain ⟨middle, hmiddle⟩ := Disk.travel_of_append hrest htravel
  exact Disk.isThere_iff.mpr ⟨middle, .dir, Disk.status_ok_iff_travel.mpr ⟨hfault, hmiddle⟩⟩

/-- The source directory of a site whose first page is there is there. -/
theorem isThere_siteSource (h : disk.isThere (siteSource.join "pages/index.html") = true) :
    disk.isThere siteSource = true :=
  disk.isThere_of_longer [.down "pages", .down "index.html"] (by decide) (by decide)
    (by decide) (by simp) h

/-- Files that were created are there. -/
theorem createFiles_ok {files : List (String × String)}
    (h : (files.forM fun file => createFile overwrite (siteSource.join file.1) file.2).run session =
      .ok () after) :
    session.disk.Grows after.disk ∧
      ∀ file ∈ files, after.disk.isThere (siteSource.join file.1) = true := by
  induction files generalizing session with
  | nil =>
    cases h
    exact ⟨.refl _, by simp⟩
  | cons file files ih =>
    obtain ⟨_, middle, hfile, hmore⟩ := Action.run_bind_ok_iff.mp h
    have hgrows := (createFile_changes overwrite (siteSource.join file.1) file.2 session).grows
    rw [hfile] at hgrows
    obtain ⟨hlater, hothers⟩ := ih hmore
    refine ⟨hgrows.trans hlater, fun other hother => ?_⟩
    rcases List.mem_cons.mp hother with rfl | hother
    · exact hlater.isThere (createFile_ok hfile)
    · exact hothers other hother

/-- **Complete.** After a run that succeeded where there was no source tree, all files are
    there. -/
theorem runInit_complete {log : List Event} (hsource : disk.isThere siteSource = false)
    (h : (runInit configPath false).run ⟨disk, log⟩ = .ok () after) :
    ∀ path ∈ sitePaths configPath, after.disk.isThere path = true := by
  rw [runInit, Action.run_tell_bind, Action.run_bind_ok_iff] at h
  obtain ⟨_, created, hcreate, htold⟩ := h
  cases htold
  have hnone : ¬ ((disk.isThere siteSource && !false) = true) := by simp [hsource]
  rw [createSite_eq, if_neg hnone, Action.run_bind_ok_iff] at hcreate
  obtain ⟨_, middle, hconfig, hfiles⟩ := hcreate
  obtain ⟨hgrows, hthere⟩ := createFiles_ok hfiles
  intro path hpath
  rcases List.mem_cons.mp hpath with rfl | hpath
  · exact hgrows.isThere (createFile_ok hconfig)
  · obtain ⟨file, hfile, rfl⟩ := List.mem_map.mp hpath
    exact hthere file hfile

/-- **Nothing to do.** Where there is a source tree a run that overwrites nothing changes
    nothing. -/
theorem runInit_sourceThere (hsource : disk.isThere siteSource = true) (configPath : Path)
    (log : List Event) :
    ∃ after, (runInit configPath false).run ⟨disk, log⟩ = .ok () after ∧ after.disk = disk := by
  have hcreate : (createSite configPath false).run ⟨disk, log ++ [.initializing]⟩ =
      .ok () ⟨disk, log ++ [.initializing] ++ [.sourceExists]⟩ := by
    rw [createSite_eq, if_pos (by simp [hsource])]
  rw [runInit, Action.run_tell_bind, Action.run_bind_of_ok hcreate]
  exact ⟨_, rfl, rfl⟩

/-! ### The guarantee -/

/-- **What exists is kept.** Setting up a site that overwrites nothing, whether it succeeds or
    fails, keeps every file, link and directory as it was, but for a file that the path of the
    configuration overruns. Where there is a source tree it changes nothing. Where there is none
    and it succeeds, all eleven files are there, and a second run changes nothing. Whether or not
    files are overwritten, files are written only where the eleven paths lead, and directories
    made only above them. -/
theorem init_keeps_existing {disk : Disk} (wf : disk.WellFormed) (configPath : Path)
    (log : List Event) :
    (∀ location node, disk.node? location = some node →
      (finalDisk ((runInit configPath false).run ⟨disk, log⟩)).node? location = some node ∨
        Overruns disk configPath location) ∧
    (disk.isThere siteSource = true →
      ∃ after, (runInit configPath false).run ⟨disk, log⟩ = .ok () after ∧ after.disk = disk) ∧
    (∀ after, disk.isThere siteSource = false →
      (runInit configPath false).run ⟨disk, log⟩ = .ok () after →
      (∀ path ∈ sitePaths configPath, after.disk.isThere path = true) ∧
      ∃ again, (runInit configPath false).run after = .ok () again ∧ again.disk = after.disk) ∧
    ∀ overwrite, disk.Changes (SiteDirs disk configPath) (SiteFiles disk configPath)
      (finalDisk ((runInit configPath overwrite).run ⟨disk, log⟩)) := by
  refine ⟨fun location node hnode => ?_, fun hsource => runInit_sourceThere hsource configPath log,
    fun after hsource hrun => ?_, fun overwrite => runInit_changes disk configPath overwrite log⟩
  · rcases (runInit_keeps wf configPath log).node location with
      hsame | ⟨-, hnone, -⟩ | ⟨hnone | hoverruns, -⟩
    · rw [hsame]
      exact .inl hnode
    · rw [hnode] at hnone
      cases hnone
    · rw [hnode] at hnone
      cases hnone
    · exact .inr hoverruns
  · have hthere := runInit_complete hsource hrun
    refine ⟨hthere, runInit_sourceThere (isThere_siteSource (hthere _ ?_)) configPath after.log⟩
    exact List.mem_cons_of_mem _ (List.mem_map.mpr ⟨_, List.mem_cons_self, rfl⟩)

/-- A disk with one file. -/
def keptDisk : Disk :=
  ⟨[(["keep.txt"], .file "mine".toUTF8)], []⟩

theorem keptDisk_wellFormed : keptDisk.WellFormed :=
  ⟨by simp [keptDisk], by simp [keptDisk], by
    simp only [keptDisk, List.mem_singleton, forall_eq, List.head?_cons, Option.mem_some_iff,
      forall_eq']
    decide⟩

/-- A new site whose configuration stands in a new directory keeps the file. -/
theorem init_keeps_existing_file :
    keptDisk.WellFormed ∧
      (finalDisk ((runInit ⟨"x/stitch.toml"⟩ false).run ⟨keptDisk, []⟩)).node? ["keep.txt"] =
        some (.file "mine".toUTF8) := by
  refine ⟨keptDisk_wellFormed, ?_⟩
  have hkeeps := (init_keeps_existing keptDisk_wellFormed ⟨"x/stitch.toml"⟩ []).1 ["keep.txt"] _ rfl
  refine hkeeps.resolve_right fun hoverruns => ?_
  exact absurd hoverruns.1 (by decide)

/-- **A lost file.** A path of a configuration that steps up from a directory that was missing is
    not there, so its file is written, over the one that was there. -/
theorem init_overruns_file :
    keptDisk.WellFormed ∧ keptDisk.node? ["keep.txt"] = some (.file "mine".toUTF8) ∧
      (finalDisk ((runInit ⟨"x/../keep.txt"⟩ false).run ⟨keptDisk, []⟩)).node? ["keep.txt"] ≠
        some (.file "mine".toUTF8) := by
  refine ⟨keptDisk_wellFormed, rfl, ?_⟩
  generalize hpath : (⟨"x/../keep.txt"⟩ : Path) = configPath
  have hsource : (keptDisk.isThere siteSource && !false) = false := by decide +kernel
  have hconfig : failure? ((createFile false (siteConfigPath configPath)
        (Scaffold.config (.ofPath configPath))).run ⟨keptDisk, [.initializing]⟩) = none ∧
      (finalDisk ((createFile false (siteConfigPath configPath)
        (Scaffold.config (.ofPath configPath))).run ⟨keptDisk, [.initializing]⟩)).node?
        ["keep.txt"] ≠ some (.file "mine".toUTF8) := by
    subst hpath
    decide +kernel
  obtain ⟨hok, hlost⟩ := hconfig
  obtain ⟨value, middle, hrun⟩ := failure?_eq_none_iff.mp hok
  have hchanges := createFile_changes false (siteConfigPath configPath)
    (Scaffold.config (.ofPath configPath)) ⟨keptDisk, [.initializing]⟩
  rw [hrun] at hlost hchanges
  -- The files that are created after the configuration keep what it left.
  have hfiles := createFiles_fresh middle configPath
    (hchanges.wellFormed keptDisk_wellFormed)
  have hsome : middle.disk.node? ["keep.txt"] ≠ none :=
    fun hnone => absurd (hchanges.grows.node?_eq_none hnone) (by decide)
  rw [finalDisk_runInit, createSite_eq, List.nil_append, hsource, if_neg Bool.false_ne_true,
    Action.run_bind_of_ok hrun]
  rcases hfiles.node ["keep.txt"] with hsame | ⟨-, hnone, -⟩ | ⟨hnone, -⟩
  · rw [hsame]
    exact hlost
  · exact absurd hnone hsome
  · exact absurd hnone hsome

end PageLoom
