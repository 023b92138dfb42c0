import PageLoom.Proofs.Disk.Changes

namespace PageLoom

/-!
# New files

A file that is created only where its path leads to nothing is a new one, if the path never steps
up. Making the directories that lead to it brings no older file into reach: if any was made, then
the last one was, and it is empty.

* `Path.way_of_parent` — the way of a path is that of its parent and one segment more;
* `Disk.makeDirsUpTo_fresh` — no directory is made, or the last one is new;
* `Disk.makeParents`, `Disk.LeadsAbove` — the directories above a path, and where they are;
* `Disk.write_fresh` — after that, a file that was not there is written where nothing was;
* `Disk.isThere_of_write` — then it is there.
-/

/-! ### Paths and their parents -/

namespace Path

/-- The parent of a path holds its segments but for the last one that says something. -/
theorem exists_parts_of_parent {path parent : Path} (h : path.parent? = some parent) :
    ∃ front inner last outer, segments path.text.toList = front ++ inner ++ [last] ++ outer ∧
      (∀ part ∈ inner ++ outer, part = [] ∨ part = ['.']) ∧ front ++ inner ++ [last] ≠ [[]] ∧
      ((front = [[]] ∧ parent = ⟨"/"⟩) ∨ (front = [] ∧ inner = [] ∧ parent = ofSegments []) ∨
        front ≠ [] ∧ front ≠ [[]] ∧ parent = ofSegments front) := by
  obtain ⟨outer, houter, hall⟩ := exists_eq_trimSegments_append (segments path.text.toList)
  have hne : trimSegments (segments path.text.toList) ≠ [] :=
    fun hnil => segments_ne_nil _ ((trimSegments_eq_nil_iff _).mp hnil)
  rw [parent?] at h
  generalize trimSegments (segments path.text.toList) = parts at h hall hne
  obtain ⟨init, last, rfl⟩ := List.eq_nil_or_concat parts |>.resolve_left hne
  obtain ⟨inner, hinner, hinit⟩ := exists_eq_trimSegments_append init
  have hnil := trimSegments_eq_nil_iff init
  simp only [List.concat_eq_append, List.dropLast_concat] at h hall
  split at h
  · cases h
  rename_i hroot
  generalize trimSegments init = front at h hinit hnil
  refine ⟨front, inner, last, outer, by rw [hall, hinit], ?_, by rwa [← hinit], ?_⟩
  · intro part hpart
    exact (List.mem_append.mp hpart).elim (hinner part) (houter part)
  split at h
  · cases h
    exact .inl ⟨rfl, rfl⟩
  · rename_i hfront
    cases h
    by_cases hempty : front = []
    · have hinner : inner = [] := by
        rw [hnil.mp hempty] at hinit
        exact (List.append_eq_nil_iff.mp hinit.symm).2
      exact .inr (.inl ⟨hempty, hinner, by rw [hempty]⟩)
    · exact .inr (.inr ⟨hempty, hfront, rfl⟩)

/-- **Parents.** A path starts where its parent starts and goes on from there by one segment.
    Before and after that it may stay. -/
theorem way_of_parent {path parent : Path} (h : path.parent? = some parent) :
    parent.isAbsolute = path.isAbsolute ∧ ∃ way last before after less,
      path.steps = way ++ List.replicate before .stay ++ stepOf last ++
        List.replicate after .stay ∧
      parent.steps = way ++ List.replicate less .stay := by
  obtain ⟨front, inner, last, outer, hall, hsilent, hroot, hparent⟩ := exists_parts_of_parent h
  have hsteps : ∃ before after, path.steps =
      walkOf front ++ List.replicate before .stay ++ stepOf last ++ List.replicate after .stay := by
    obtain ⟨before, hbefore⟩ :=
      exists_walkOf_silent fun part hpart => hsilent part (List.mem_append_left _ hpart)
    obtain ⟨after, hafter⟩ :=
      exists_walkOf_silent fun part hpart => hsilent part (List.mem_append_right _ hpart)
    rw [steps_eq, hall]
    simp only [walkOf_append, hbefore, hafter]
    have hone : walkOf [last] = stepOf last := by simp [walkOf]
    rw [hone]
    split
    · exact ⟨before, after + 1, by rw [List.replicate_succ', List.append_assoc _ _ [Step.stay]]⟩
    · exact ⟨before, after, by rw [List.append_nil]⟩
  obtain ⟨before, after, hsteps⟩ := hsteps
  have hhead := head?_segments path.text.toList
  have htext : path.text.toList ≠ [] := by
    -- The empty path has no parent.
    intro htext
    rw [htext] at hall
    have hlength := congrArg List.length hall
    simp only [segments, List.length_append, List.length_cons, List.length_nil] at hlength
    obtain rfl : front = [] := List.eq_nil_of_length_eq_zero (by omega)
    obtain rfl : inner = [] := List.eq_nil_of_length_eq_zero (by omega)
    obtain rfl : outer = [] := List.eq_nil_of_length_eq_zero (by omega)
    exact hroot (by simpa [segments] using hall.symm)
  rw [or_iff_right htext, hall] at hhead
  have habs : path.isAbsolute = decide ((front ++ inner ++ [last] ++ outer).head? = some []) := by
    rw [isAbsolute, decide_eq_decide]
    exact hhead.symm
  rcases hparent with ⟨rfl, rfl⟩ | ⟨rfl, rfl, rfl⟩ | ⟨hne, hfront, rfl⟩
  · exact ⟨by rw [habs]; rfl, _, last, before, after, 1, hsteps, rfl⟩
  · refine ⟨?_, _, last, before, after, 1, hsteps, rfl⟩
    have hlast : last ≠ [] := by simpa using hroot
    rw [habs]
    simp [isAbsolute, ofSegments, hlast, List.intercalate]
  · have hown : segments (ofSegments front).text.toList = front := by
      rw [ofSegments, String.toList_ofList]
      refine segments_intercalate hne fun part hpart => ?_
      have hmem : part ∈ segments path.text.toList := by
        rw [hall]
        simp [hpart]
      exact slash_not_mem_of_mem_segments hmem
    have hparent := head?_segments (ofSegments front).text.toList
    have hparentText : (ofSegments front).text.toList ≠ [] := fun hempty => by
      rw [hempty] at hown
      exact hfront hown.symm
    rw [hown, or_iff_right hparentText] at hparent
    refine ⟨?_, _, last, before, after, if front.getLast? = some [] then 1 else 0, hsteps, ?_⟩
    · rw [habs, isAbsolute, decide_eq_decide, ← hparent, List.append_assoc, List.append_assoc,
        List.head?_append_of_ne_nil _ hne]
    · rw [steps_eq, hown]
      split <;> rfl

/-- The parent of a path that never steps up never does. -/
theorem up_not_mem_of_parent {path parent : Path} (h : path.parent? = some parent)
    (hup : .up ∉ path.steps) : .up ∉ parent.steps := by
  obtain ⟨-, way, last, before, after, less, hsteps, hparent⟩ := way_of_parent h
  rw [hsteps] at hup
  rw [hparent]
  simp_all [List.mem_replicate]

end Path

namespace Disk

variable {disk middle after : Disk} {path parent : Path} {location up : Location}
  {bytes : ByteArray}

/-- **One segment more.** From where its parent leads, a path that never steps up stays, or takes
    one step down. -/
theorem PathLeads.of_parent (h : disk.PathLeads path location)
    (hparent : path.parent? = some parent) (hup : .up ∉ path.steps)
    (hleads : disk.PathLeads parent up) :
    location = up ∨ ∃ name, disk.Leads up [.down name] location := by
  obtain ⟨habs, way, last, before, after, less, hsteps, hway⟩ := Path.way_of_parent hparent
  have horigin : parent.origin disk.home = path.origin disk.home := by
    rw [Path.origin, Path.origin, habs]
  rw [PathLeads, horigin, hway, leads_append_stays] at hleads
  rw [PathLeads, hsteps, leads_append_stays] at h
  obtain ⟨middle, hfirst, hlast⟩ := h.split
  rw [leads_append_stays] at hfirst
  cases hfirst.unique hleads
  rw [hsteps] at hup
  have hstep : .up ∉ stepOf last := fun hmem => hup (by simp [hmem])
  rw [stepOf] at hlast hstep
  split at hlast
  · cases hlast
    exact .inl rfl
  · rename_i hempty
    split at hlast
    · exact .inl (hlast.unique (.stay (.here _)))
    · rename_i hdot
      split at hlast
      · rename_i hdots
        simp [hdots] at hstep
      · exact .inr ⟨_, hlast⟩

/-! ### New directories -/

/-- What is missing from a disk that grew was missing before. -/
theorem Grows.node?_eq_none (h : disk.Grows after) (hnone : after.node? location = none) :
    disk.node? location = none := by
  by_contra hsome
  obtain ⟨node, hnode⟩ := Option.ne_none_iff_exists'.mp hsome
  obtain ⟨node', hnode'⟩ := h.exists_node hnode
  rw [hnone] at hnode'
  cases hnode'

/-- Below a place where nothing was there is no link, and a path whose parent leads there leads to
    another place where nothing was. -/
theorem WellFormed.node?_of_parent (wf : disk.WellFormed) (hgrows : disk.Grows middle)
    (hnone : disk.node? up = none) (hparent : path.parent? = some parent)
    (hup : .up ∉ path.steps) (hleads : middle.PathLeads parent up)
    (hpath : middle.PathLeads path location) : disk.node? location = none := by
  have hbelow : ∀ name, disk.node? (name :: up) = none := by
    intro name
    by_contra hsome
    obtain ⟨node, hnode⟩ := Option.ne_none_iff_exists'.mp hsome
    rw [wf.parent hnode] at hnone
    cases hnone
  obtain rfl | ⟨name, hdown⟩ := hpath.of_parent hparent hup hleads
  · exact hnone
  · have hno : ∀ target, middle.node? (name :: up) ≠ some (.link target) := by
      intro target hlink
      rw [hgrows.link_iff, hbelow name] at hlink
      cases hlink
    rw [hdown.eq_of_down hno]
    exact hbelow name

/-- **New directories.** If directories were made that lead to a path, and for the path itself, then
    the last one stands where nothing was. -/
theorem makeDirsUpTo_fresh (wf : disk.WellFormed) {height : Nat} (hup : .up ∉ path.steps)
    (h : disk.makeDirsUpTo height path = (.ok (), after)) :
    after = disk ∨ ∃ location, after.StandsAt path location ∧ disk.node? location = none := by
  induction height using Nat.strongRecOn generalizing path after with
  | _ height ih =>
    obtain ⟨-, hdone⟩ | ⟨-, hdone⟩ | ⟨-, -, hdone | ⟨fewer, parent, rfl, hparent, hmore⟩⟩ :=
      disk.makeDirsUpTo_cases height path
    · rw [hdone] at h
      cases h
      exact .inl rfl
    · rw [hdone] at h
      obtain ⟨made, hmake, hensure⟩ | ⟨-, -, hensure⟩ | ⟨e, hensure⟩ := disk.ensureDir_cases path
      · rw [hensure] at h
        cases h
        obtain ⟨name, up, -, -, -, hnone, -, hstatus⟩ := makeDir_ok hmake
        exact .inr ⟨_, .inr hstatus, hnone⟩
      · rw [hensure] at h
        cases h
        exact .inl rfl
      · rw [hensure] at h
        cases h
    · rw [hdone] at h
      cases h
    obtain ⟨middle, hmade, hdone⟩ | ⟨e, middle, -, hdone⟩ := hmore
    · have hparents := makeDirsUpTo_changes disk fewer parent
      have hbefore := ih fewer (Nat.lt_succ_self _) (Path.up_not_mem_of_parent hparent hup) hmade
      rw [hmade] at hparents
      rw [hdone] at h
      -- The directory itself is made above, or it was there already.
      obtain ⟨made, hmake, hensure⟩ | ⟨location, hstatus, hensure⟩ | ⟨e, hensure⟩ :=
        middle.ensureDir_cases path
      · rw [hensure] at h
        cases h
        obtain ⟨name, up, -, -, -, hnone, -, hstatus⟩ := makeDir_ok hmake
        exact .inr ⟨_, .inr hstatus, hparents.grows.node?_eq_none hnone⟩
      · rw [hensure] at h
        cases h
        obtain rfl | ⟨up, hstands, hnone⟩ := hbefore
        · exact .inl rfl
        · exact .inr ⟨location, .inr hstatus, wf.node?_of_parent hparents.grows hnone hparent hup
            hstands.pathLeads (pathLeads_of_status hstatus).1⟩
      · rw [hensure] at h
        cases h
    · rw [hdone] at h
      cases h

/-! ### New files -/

/-- The disk with the directories that lead to a path, and whether all of them are there. -/
def makeParents (disk : Disk) (path : Path) : Except IoError Unit × Disk :=
  match path.parent? with
  | some parent => disk.makeDirs parent
  | none => (.ok (), disk)

/-- The places where the paths above a path lead. -/
def LeadsAbove (disk : Disk) (path : Path) (location : Location) : Prop :=
  ∃ parent, path.parent? = some parent ∧ disk.Upwards parent location

/-- The directories above a path are made where the paths above it lead. -/
theorem makeParents_changes (disk : Disk) (path : Path) :
    disk.Changes (disk.LeadsAbove path) (fun _ => False) (disk.makeParents path).2 := by
  rw [makeParents]
  cases hparent : path.parent? with
  | none => exact .refl disk
  | some parent =>
    exact (makeDirsUpTo_changes disk _ parent).mono_dirs fun _ hup => ⟨parent, hparent, hup⟩

/-- Growth does not change where the paths above a path lead. -/
theorem Grows.leadsAbove_iff (h : disk.Grows after) :
    after.LeadsAbove path location ↔ disk.LeadsAbove path location := by
  simp only [LeadsAbove, Upwards, h.pathLeads_iff]

/-- A path that was not there leads to nothing if a file can be written to it. -/
theorem node?_of_write (hthere : disk.isThere path = false)
    (h : disk.write path bytes = .ok after) :
    ∃ place, disk.node? place = none ∧ disk.PathLeads path place := by
  obtain ⟨place, hplace, ⟨location, rfl⟩ | ⟨location, old, rfl⟩, -⟩ := write_located h
  · obtain ⟨-, -, -, -, -, hnone⟩ := node?_of_locate_free hplace
    exact ⟨location, hnone, pathLeads_of_locate (.inl rfl) hplace⟩
  · have hsome : disk.isThere path = true :=
      isThere_iff.mpr ⟨location, .file old, status_ok_iff.mpr hplace⟩
    rw [hsome] at hthere
    cases hthere

/-- **New files.** Where a path that never steps up was not there, nothing was at the place that a
    file is written at after the directories above it were made. -/
theorem write_fresh (wf : disk.WellFormed) (hup : .up ∉ path.steps)
    (hthere : disk.isThere path = false) (hmade : disk.makeParents path = (.ok (), middle))
    (hwrite : middle.write path bytes = .ok after) (hleads : middle.PathLeads path location) :
    disk.node? location = none := by
  have hchanges := disk.makeParents_changes path
  rw [hmade] at hchanges
  have hsame : middle = disk → disk.node? location = none := by
    rintro rfl
    obtain ⟨place, hnone, hplace⟩ := node?_of_write hthere hwrite
    rwa [← hplace.unique hleads]
  rw [makeParents] at hmade
  cases hparent : path.parent? with
  | none =>
    rw [hparent] at hmade
    cases hmade
    exact hsame rfl
  | some parent =>
    rw [hparent] at hmade
    obtain rfl | ⟨up, hstands, hnone⟩ :=
      makeDirsUpTo_fresh wf (Path.up_not_mem_of_parent hparent hup) hmade
    · exact hsame rfl
    · exact wf.node?_of_parent hchanges.grows hnone hparent hup hstands.pathLeads hleads

/-- A file that was written is there. -/
theorem isThere_of_write (h : disk.write path bytes = .ok after) : after.isThere path = true := by
  have hgrows : disk.Grows after := by
    obtain ⟨location, -, hfits, rfl⟩ := write_ok h
    exact (changes_put_file hfits bytes).grows
  obtain ⟨place, hplace, hfound, rfl⟩ := write_located h
  have hnow :
      (disk.put place.location (.file bytes)).node? place.location = some (.file bytes) := by
    rcases hfound with ⟨location, rfl⟩ | ⟨location, old, rfl⟩
    · obtain ⟨name, up, rfl, -⟩ := node?_of_locate_free hplace
      exact node?_put_self ..
    · have hold := node?_of_travel_taken (locate_ok_iff.mp hplace).2
      cases location with
      | nil => cases hold
      | cons name up => exact node?_put_self ..
  obtain ⟨hfault, htravel⟩ := locate_ok_iff.mp hplace
  refine isThere_iff.mpr ⟨place.location, .file bytes, status_ok_iff_travel.mpr ⟨hfault, ?_⟩⟩
  exact hgrows.keeps.travel (.inl rfl) hnow (fun _ hlink => by cases hlink) htravel

end Disk

end PageLoom
