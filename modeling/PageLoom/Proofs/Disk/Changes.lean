import PageLoom.Proofs.Disk.Standing

namespace PageLoom

/-!
# What operations change

Every operation of a build makes directories where nothing was, or writes files, and leaves the
rest of the disk alone. What it changes is told by two sets of places.

* `Disk.Changes` — only at the given places directories were made and files written;
* `Disk.write_ok`, `Disk.copyFile_ok` — a file is written where its path leads;
* `Path.IsAbove`, `Disk.makeDirs_changes` — directories are made where a path and those above
  it lead;
* `Disk.makeDirs_below` — in a standing directory at most one is made.
-/

/-- A path is above another one: it is that path itself, or above its parent. -/
inductive Path.IsAbove (upper : Path) : Path → Prop
  | self : IsAbove upper upper
  | step {path parent : Path} : path.parent? = some parent → IsAbove upper parent →
      IsAbove upper path

namespace Disk

/-- Between two disks directories were made only at the places `dirs`, where nothing was, and
    files written only at the places `files`. Of a directory with none of these places in it
    the entries are as they were, in their order. -/
structure Changes (dirs files : Location → Prop) (before after : Disk) : Prop where
  grows : before.Grows after
  wellFormed : before.WellFormed → after.WellFormed
  node : ∀ location, after.node? location = before.node? location ∨
    (dirs location ∧ before.node? location = none ∧ after.node? location = some .dir) ∨
    (files location ∧ ∃ bytes, after.node? location = some (.file bytes))
  children : ∀ location, (∀ name, ¬ dirs (name :: location) ∧ ¬ files (name :: location)) →
    after.children location = before.children location

variable {disk before middle after : Disk} {dirs files : Location → Prop} {location : Location}
  {path : Path}

/-- Nothing changed. -/
theorem Changes.refl (disk : Disk) : disk.Changes dirs files disk :=
  ⟨.refl disk, id, fun _ => .inl rfl, fun _ _ => rfl⟩

/-- Changes follow each other. -/
theorem Changes.trans (h : before.Changes dirs files middle) (h' : middle.Changes dirs files after) :
    before.Changes dirs files after := by
  refine ⟨h.grows.trans h'.grows, h'.wellFormed ∘ h.wellFormed, fun location => ?_,
    fun location hno => (h'.children location hno).trans (h.children location hno)⟩
  rcases h'.node location with hsame | ⟨hdirs, hnone, hdir⟩ | hfile
  · rw [hsame]
    exact h.node location
  · refine .inr (.inl ⟨hdirs, ?_, hdir⟩)
    rcases h.node location with hsame | ⟨-, -, hdir⟩ | ⟨-, bytes, hfile⟩
    · rwa [← hsame]
    · rw [hnone] at hdir
      cases hdir
    · rw [hnone] at hfile
      cases hfile
  · exact .inr (.inr hfile)

/-- What changed at some places changed at more places. -/
theorem Changes.mono {dirs' files' : Location → Prop} (h : before.Changes dirs files after)
    (hdirs : ∀ location, dirs location → dirs' location)
    (hfiles : ∀ location, files location → files' location) : before.Changes dirs' files' after :=
  ⟨h.grows, h.wellFormed,
    fun location => (h.node location).imp_right
      (Or.imp (And.imp_left (hdirs location)) (And.imp_left (hfiles location))),
    fun location hno => h.children location fun name =>
      ⟨mt (hdirs _) (hno name).1, mt (hfiles _) (hno name).2⟩⟩

/-- Directories were made at more places. -/
theorem Changes.mono_dirs {dirs' : Location → Prop} (h : before.Changes dirs files after)
    (hdirs : ∀ location, dirs location → dirs' location) : before.Changes dirs' files after :=
  h.mono hdirs fun _ => id

/-- Files were written at more places. -/
theorem Changes.mono_files {files' : Location → Prop} (h : before.Changes dirs files after)
    (hfiles : ∀ location, files location → files' location) : before.Changes dirs files' after :=
  h.mono (fun _ => id) hfiles

/-- Elsewhere nothing changed. -/
theorem Changes.node_eq (h : before.Changes dirs files after) (hdirs : ¬ dirs location)
    (hfiles : ¬ files location) : after.node? location = before.node? location := by
  rcases h.node location with hsame | ⟨hdir, -⟩ | ⟨hfile, -⟩
  · exact hsame
  · exact absurd hdir hdirs
  · exact absurd hfile hfiles

/-- Where no file was written the same files and links stand. -/
theorem Changes.node_iff (h : before.Changes dirs files after) (hfiles : ¬ files location)
    {node : Node} (hnode : node ≠ .dir) :
    after.node? location = some node ↔ before.node? location = some node := by
  rcases h.node location with hsame | ⟨-, hnone, hdir⟩ | ⟨hfile, -⟩
  · rw [hsame]
  · rw [hnone, hdir]
    simp [Ne.symm hnode]
  · exact absurd hfile hfiles

/-- Where no directories were made, all directories and links are those of before. -/
theorem Changes.keeps_back (h : before.Changes (fun _ => False) files after) :
    after.Keeps before := by
  refine ⟨h.grows.home.symm, fun {location} hdir => ?_, (h.grows.link_iff _ _).mp⟩
  rcases h.node location with hsame | ⟨hno, -⟩ | ⟨-, bytes, hfile⟩
  · rwa [← hsame]
  · exact hno.elim
  · rw [hdir] at hfile
    cases hfile

/-! ### Single nodes -/

/-- Putting a node changes the entries of one directory only. -/
theorem children_put_of_ne (disk : Disk) (name : String) {up : Location} (node : Node)
    (h : location ≠ up) : (disk.put (name :: up) node).children location = disk.children location := by
  rw [children, children, put, List.filterMap_cons]
  simp only [if_neg (Ne.symm h)]
  induction disk.nodes with
  | nil => rfl
  | cons entry nodes ih =>
    by_cases hentry : entry.1 = name :: up
    · rw [List.filter_cons_of_neg (by simp [hentry]), ih, List.filterMap_cons]
      obtain ⟨place, found⟩ := entry
      cases hentry
      simp only [if_neg (Ne.symm h)]
    · rw [List.filter_cons_of_pos (by simp [hentry]), List.filterMap_cons, List.filterMap_cons, ih]

/-- A new directory. -/
theorem changes_put_dir {name : String} {up : Location} (hname : IsName name)
    (hup : disk.node? up = some .dir) (hnone : disk.node? (name :: up) = none) :
    disk.Changes (· = name :: up) (fun _ => False) (disk.put (name :: up) .dir) := by
  refine ⟨Grows.put disk name up ?_, fun wf => wf.put hname hup fun _ => rfl, fun location => ?_,
    fun location hno => children_put_of_ne disk name .dir ?_⟩
  · rw [hnone]
    exact .dir
  · by_cases hplace : location = name :: up
    · subst hplace
      exact .inr (.inl ⟨rfl, hnone, node?_put_self ..⟩)
    · exact .inl (node?_put_of_ne disk .dir hplace)
  · rintro rfl
    exact (hno name).1 rfl

/-- A file can be written at the place: there is one, or there is room for its name in a
    directory. -/
def FileFits (disk : Disk) (location : Location) : Prop :=
  (∃ old, disk.node? location = some (.file old)) ∨
    disk.node? location = none ∧
      ∃ name up, location = name :: up ∧ IsName name ∧ disk.node? up = some .dir

/-- No file can be written at the root. -/
theorem FileFits.exists_cons (h : disk.FileFits location) :
    ∃ name up, location = name :: up := by
  cases location with
  | nil => rcases h with ⟨old, hold⟩ | ⟨hnone, -⟩ <;> simp at *
  | cons name up => exact ⟨name, up, rfl⟩

/-- A written file. -/
theorem changes_put_file (h : disk.FileFits location) (bytes : ByteArray) :
    disk.Changes (fun _ => False) (· = location) (disk.put location (.file bytes)) := by
  obtain ⟨name, up, rfl⟩ := h.exists_cons
  refine ⟨Grows.put disk name up ?_, fun wf => ?_, fun location => ?_,
    fun location hno => children_put_of_ne disk name _ ?_⟩
  · rcases h with ⟨old, hold⟩ | ⟨hnone, -⟩
    · rw [hold]
      exact .rewritten old bytes
    · rw [hnone]
      exact .file bytes
  · rcases h with ⟨old, hold⟩ | ⟨hnone, _, _, hplace, hname, hup⟩
    · exact wf.put (wf.isName hold) (wf.parent hold) fun hdir => by
        rw [hold] at hdir
        cases hdir
    · cases hplace
      exact wf.put hname hup fun hdir => by
        rw [hnone] at hdir
        cases hdir
  · by_cases hplace : location = name :: up
    · subst hplace
      exact .inr (.inr ⟨rfl, bytes, node?_put_self ..⟩)
    · exact .inl (node?_put_of_ne disk _ hplace)
  · rintro rfl
    exact (hno name).2 rfl

/-! ### Files -/

/-- What is written at a place was found free there, or as a file. -/
theorem write_located {bytes : ByteArray} (h : disk.write path bytes = .ok after) :
    ∃ place, disk.locate true path = .ok place ∧
      ((∃ location, place = .free location) ∨ ∃ location old, place = .taken location (.file old)) ∧
      after = disk.put place.location (.file bytes) := by
  simp only [write] at h
  split at h
  · cases hentry : disk.locateEntry path <;> rw [hentry] at h <;> cases h
  cases hplace : disk.locate true path with
  | error e =>
    rw [hplace] at h
    cases h
  | ok place =>
    rw [hplace] at h
    cases place with
    | free location =>
      cases h
      exact ⟨_, rfl, .inl ⟨location, rfl⟩, rfl⟩
    | taken location node =>
      cases node with
      | file old =>
        cases h
        exact ⟨_, rfl, .inr ⟨location, old, rfl⟩, rfl⟩
      | link target => cases h
      | dir => cases h

/-- **Writing.** A file that was written is where its path leads. -/
theorem write_ok {bytes : ByteArray} (h : disk.write path bytes = .ok after) :
    ∃ location, disk.PathLeads path location ∧ disk.FileFits location ∧
      after = disk.put location (.file bytes) := by
  obtain ⟨place, hplace, hfound, rfl⟩ := write_located h
  refine ⟨place.location, pathLeads_of_locate (.inl rfl) hplace, ?_, rfl⟩
  rcases hfound with ⟨location, rfl⟩ | ⟨location, old, rfl⟩
  · obtain ⟨name, up, rfl, hname, hup, hnone⟩ := node?_of_locate_free hplace
    exact .inr ⟨hnone, name, up, rfl, hname, hup⟩
  · exact .inl ⟨old, node?_of_travel_taken (locate_ok_iff.mp hplace).2⟩

/-- **Copying.** A file that was copied is where its path leads, with the bytes of the file that
    the other path leads to. If that is the same place, the file is empty now. -/
theorem copyFile_ok {source target : Path} (h : disk.copyFile source target = .ok after) :
    ∃ origin location old bytes, disk.PathLeads source origin ∧
      disk.node? origin = some (.file old) ∧ disk.PathLeads target location ∧
      disk.FileFits location ∧ after = disk.put location (.file bytes) ∧
      bytes = if origin = location then .empty else old := by
  simp only [copyFile] at h
  cases hstatus : disk.status source with
  | error e =>
    rw [hstatus] at h
    cases h
  | ok found =>
    obtain ⟨origin, node⟩ := found
    obtain ⟨hleads, hnode⟩ := pathLeads_of_status hstatus
    cases hwrite : disk.write target .empty with
    | error e =>
      rw [hstatus] at h
      simp only [bind, Except.bind, hwrite] at h
      cases h
    | ok emptied =>
      rw [hstatus] at h
      simp only [bind, Except.bind, hwrite] at h
      -- The target is written twice at one place, first without any bytes.
      obtain ⟨location, htarget, hfits, rfl⟩ := write_ok hwrite
      have hgrows := (changes_put_file hfits .empty).grows
      split at h
      · rename_i bytes hbytes
        obtain ⟨again, hagain, -, rfl⟩ := write_ok h
        cases ((hgrows.pathLeads_iff target).mp hagain).unique htarget
        obtain ⟨name, up, rfl⟩ := hfits.exists_cons
        -- If the source is there too, then what is read now is what was written first.
        by_cases hsame : origin = name :: up
        · subst hsame
          obtain ⟨old, hold⟩ | ⟨hnone, -⟩ := hfits
          · rw [node?_put_self] at hbytes
            cases hbytes
            exact ⟨_, _, old, _, hleads, hold, htarget, .inl ⟨old, hold⟩, put_put .., (if_pos rfl).symm⟩
          · rw [hnone] at hnode
            cases hnode
        · rw [node?_put_of_ne _ _ hsame] at hbytes
          exact ⟨_, _, bytes, _, hleads, hbytes, htarget, hfits, put_put .., (if_neg hsame).symm⟩
      · cases h

/-! ### Directories -/

/-- A directory that was made is where its path leads. -/
theorem makeDir_ok (h : disk.makeDir path = .ok after) :
    ∃ name up, disk.PathLeads path (name :: up) ∧ IsName name ∧ disk.node? up = some .dir ∧
      disk.node? (name :: up) = none ∧ after = disk.put (name :: up) .dir ∧
      after.status path = .ok (name :: up, .dir) := by
  have htrims := path.trims_withoutSlashes
  have horigin : path.withoutSlashes.origin disk.home = path.origin disk.home := by
    rw [Path.origin, Path.origin, htrims.absolute]
  -- Only a free place is taken, so any other end of the way is a fault.
  simp only [makeDir] at h
  cases hplace : disk.locateEntry path with
  | error e =>
    rw [hplace] at h
    cases h
  | ok place =>
    rw [hplace] at h
    cases place with
    | taken location node => cases h
    | free location =>
      cases h
      obtain ⟨hfault, htravel⟩ := locateEntry_ok_iff.mp hplace
      obtain ⟨name, up, rfl, hname, hup, hnone⟩ :=
        node?_of_travel_free (fun _ => Path.isName_of_down_mem_steps) htravel
      have hleads : disk.PathLeads path.withoutSlashes (name :: up) := by
        rw [PathLeads, horigin]
        exact leads_of_travel (.inr fun _ hplace => by cases hplace) htravel
      refine ⟨name, up, (pathLeads_of_trims htrims).mp hleads, hname, hup, hnone, rfl, ?_⟩
      rw [status_ok_iff_travel]
      refine ⟨hfault, (travel_of_trims htrims _).mp ?_⟩
      -- The way that ended at the free place ends at the new directory now.
      have hkeeps := (changes_put_dir hname hup hnone).grows.keeps
      rw [← horigin] at htravel
      exact hkeeps.travel (.inr ⟨rfl, fun _ hplace => by cases hplace⟩) (node?_put_self ..)
        (fun _ hnode => by cases hnode) htravel

/-- A directory at a path is made, or was there, or is not there. -/
theorem ensureDir_cases (disk : Disk) (path : Path) :
    (∃ after, disk.makeDir path = .ok after ∧ disk.ensureDir path = (.ok (), after)) ∨
    (∃ location, disk.status path = .ok (location, .dir) ∧ disk.ensureDir path = (.ok (), disk)) ∨
    ∃ e, disk.ensureDir path = (.error e, disk) := by
  rw [ensureDir]
  cases hmake : disk.makeDir path with
  | ok after => exact .inl ⟨after, rfl, rfl⟩
  | error e =>
    refine .inr ?_
    by_cases hleads : disk.leadsToDir path = true
    · rw [leadsToDir] at hleads
      split at hleads
      · rename_i location hstatus
        exact .inl ⟨location, hstatus, by simp [leadsToDir, hstatus]⟩
      · cases hleads
    · exact .inr ⟨e, by simp [hleads]⟩

/-- A directory at a path is made where the path leads. -/
theorem ensureDir_changes (disk : Disk) (path : Path) :
    disk.Changes (disk.PathLeads path) (fun _ => False) (disk.ensureDir path).2 := by
  obtain ⟨after, hmake, hdone⟩ | ⟨location, -, hdone⟩ | ⟨e, hdone⟩ := disk.ensureDir_cases path
  · obtain ⟨name, up, hleads, hname, hup, hnone, rfl, -⟩ := makeDir_ok hmake
    rw [hdone]
    exact (changes_put_dir hname hup hnone).mono_dirs fun _ hplace => hplace ▸ hleads
  · rw [hdone]
    exact .refl disk
  · rw [hdone]
    exact .refl disk

/-- A directory that was made stands. -/
theorem ensureDir_ok (h : (disk.ensureDir path).1 = .ok ()) :
    ∃ location, (disk.ensureDir path).2.StandsAt path location := by
  obtain ⟨after, hmake, hdone⟩ | ⟨location, hstatus, hdone⟩ | ⟨e, hdone⟩ := disk.ensureDir_cases path
  · obtain ⟨name, up, -, -, -, -, -, hstatus⟩ := makeDir_ok hmake
    rw [hdone]
    exact ⟨_, .inr hstatus⟩
  · rw [hdone]
    exact ⟨_, .inr hstatus⟩
  · rw [hdone] at h
    cases h

/-- The places where a path and those above it lead. -/
def Upwards (disk : Disk) (path : Path) (location : Location) : Prop :=
  ∃ upper : Path, upper.IsAbove path ∧ disk.PathLeads upper location

/-- **Directories.** Making a directory with those that lead to it changes nothing but where the
    path and those above it lead. -/
theorem makeDirsUpTo_changes (disk : Disk) (height : Nat) (path : Path) :
    disk.Changes (disk.Upwards path) (fun _ => False) (disk.makeDirsUpTo height path).2 := by
  induction height using Nat.strongRecOn generalizing path with
  | _ height ih =>
    have hself : ∀ location, disk.PathLeads path location → disk.Upwards path location :=
      fun location hleads => ⟨path, .self, hleads⟩
    obtain ⟨-, hdone⟩ | ⟨-, hdone⟩ | ⟨-, -, hdone | ⟨fewer, parent, rfl, hparent, hup⟩⟩ :=
      disk.makeDirsUpTo_cases height path
    · rw [hdone]
      exact .refl disk
    · rw [hdone]
      exact (ensureDir_changes disk path).mono_dirs hself
    · rw [hdone]
      exact .refl disk
    have hparents : disk.Changes (disk.Upwards path) (fun _ => False)
        (disk.makeDirsUpTo fewer parent).2 :=
      (ih fewer (Nat.lt_succ_self _) parent).mono_dirs
        fun _ ⟨upper, habove, hleads⟩ => ⟨upper, .step hparent habove, hleads⟩
    rcases hup with ⟨changed, hmade, hdone⟩ | ⟨e, changed, hmade, hdone⟩
    · rw [hmade] at hparents
      rw [hdone]
      refine hparents.trans ((ensureDir_changes changed path).mono_dirs fun location hleads => ?_)
      exact hself location ((hparents.grows.pathLeads_iff path).mp hleads)
    · rw [hmade] at hparents
      rw [hdone]
      exact hparents

/-- A directory that was made with those that lead to it stands. -/
theorem makeDirsUpTo_ok {height : Nat} (h : (disk.makeDirsUpTo height path).1 = .ok ()) :
    ∃ location, (disk.makeDirsUpTo height path).2.StandsAt path location := by
  obtain ⟨hempty, hdone⟩ | ⟨-, hdone⟩ | ⟨-, -, hdone | ⟨fewer, parent, rfl, hparent, hup⟩⟩ :=
    disk.makeDirsUpTo_cases height path
  · rw [hdone]
    exact ⟨_, .inl ⟨hempty, rfl⟩⟩
  · rw [hdone] at h ⊢
    exact ensureDir_ok h
  · rw [hdone] at h
    cases h
  · rcases hup with ⟨changed, -, hdone⟩ | ⟨e, changed, -, hdone⟩
    · rw [hdone] at h ⊢
      exact ensureDir_ok h
    · rw [hdone] at h
      cases h

/-- **One directory.** Where the parent of a path stands, nothing but the directory of the path
    is made. -/
theorem makeDirs_below {parent : Path} {up place : Location} (hparent : path.parent? = some parent)
    (hstands : disk.StandsAt parent up) (hleads : disk.PathLeads path place) :
    disk.Changes (· = place) (fun _ => False) (disk.makeDirs path).2 := by
  have hensure : disk.Changes (· = place) (fun _ => False) (disk.ensureDir path).2 :=
    (ensureDir_changes disk path).mono_dirs fun _ hother => hother.unique hleads
  rw [makeDirs]
  obtain ⟨-, hdone⟩ | ⟨-, hdone⟩ | ⟨-, -, hdone | ⟨fewer, other, -, hother, hup⟩⟩ :=
    disk.makeDirsUpTo_cases path.text.length path
  · rw [hdone]
    exact .refl disk
  · rwa [hdone]
  · rw [hdone]
    exact .refl disk
  · cases hparent.symm.trans hother
    rcases hup with ⟨changed, hmade, hdone⟩ | ⟨e, changed, hmade, hdone⟩
    · rw [hstands.makeDirsUpTo] at hmade
      cases hmade
      rwa [hdone]
    · rw [hstands.makeDirsUpTo] at hmade
      cases hmade

end Disk

end PageLoom
