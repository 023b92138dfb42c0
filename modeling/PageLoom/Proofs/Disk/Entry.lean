import PageLoom.Proofs.Disk.Agree
import PageLoom.Proofs.Disk.Scan

namespace PageLoom

/-!
# Entries of standing directories

In a directory that stands, what can be done under a name depends only on what is there under that
name: a directory can be made, or a file written, just if nothing else is in the way. The way to the
directory does not matter, nor what stands next to the entry.

* `Disk.entry` — what stands in a directory under a name;
* `Disk.IsEntry` — paths of entries of standing directories;
* `Disk.IsEntry.of_makeDirs`, `Disk.AgreeOn.makeDirs` — making the directory of an entry, which goes
  alike on disks that agree on the entry;
* `Disk.IsEntry.write_ok_iff`, `Disk.AgreeOn.write` — the same for writing its file;
* `Disk.IsEntry.copyFile_ok_iff` — copying a file to an entry.
-/

namespace Path

variable {name : String}

/-- A path that ends in a name does not end in a slash. -/
theorem endsInSlash_join (path : Path) (h : IsName name) : (path.join name).endsInSlash = false := by
  have htight := isTight_of_isName h
  rw [path.join_eq_lead htight.1, endsInSlash, decide_eq_false_iff_not, String.toList_append,
    List.getLast?_append_of_ne_nil _ h.1]
  exact htight.2

/-- A path that the empty text continues ends in a slash, unless it is empty. -/
theorem endsInSlash_join_empty (path : Path) (hne : path.text ≠ "") :
    (path.join "").endsInSlash = true := by
  rw [path.join_eq_lead (by simp), String.append_empty, endsInSlash, lead, decide_eq_true_eq]
  split
  · rename_i hend
    simpa [hne] using hend
  · simp

/-- Slashes behind a path that does not end in one are what it is without. -/
theorem withoutSlashes_append {path : Path} (hne : path.text.toList ≠ [])
    (h : path.endsInSlash = false) (count : Nat) :
    (⟨path.text ++ String.ofList (List.replicate count '/')⟩ : Path).withoutSlashes = path := by
  obtain ⟨c, more, hreverse⟩ := List.exists_cons_of_ne_nil (mt List.reverse_eq_nil_iff.mp hne)
  have hc : c ≠ '/' := by
    rintro rfl
    rw [endsInSlash, ← List.head?_reverse, hreverse] at h
    simp at h
  have hkept : (path.text ++ String.ofList (List.replicate count '/')).toList.reverse.dropWhile
      (· = '/') = path.text.toList.reverse := by
    rw [String.toList_append, String.toList_ofList, List.reverse_append, List.reverse_replicate,
      List.dropWhile_append_of_pos (by simp), hreverse,
      List.dropWhile_cons_of_neg (by simpa using hc)]
  rw [withoutSlashes, hkept, hreverse]
  simp [← hreverse]

/-- A path that does not end in a slash has none to lose. -/
theorem withoutSlashes_of_not_endsInSlash {path : Path} (hne : path.text.toList ≠ [])
    (h : path.endsInSlash = false) : path.withoutSlashes = path := by
  simpa using withoutSlashes_append hne h 0

/-- A path that ends in a name and a slash loses the slash. -/
theorem withoutSlashes_join_empty (path : Path) (h : IsName name) :
    ((path.join name).join "").withoutSlashes = path.join name := by
  rw [path.join_join_empty h]
  exact withoutSlashes_append (path.toList_join_ne_nil h) (path.endsInSlash_join h) 1

end Path

namespace Disk

variable {disk other before after : Disk} {on : Location → Prop} {path : Path} {name : String}
  {up : Location} {bytes : ByteArray}

/-! ### What stands under a name -/

/-- What stands in a directory under a name. -/
def entry (disk : Disk) (up : Location) (name : String) : Except IoError Place :=
  if name.utf8ByteSize > nameLimit then .error .nameTooLong
  else
    match disk.node? (name :: up) with
    | none => .ok (.free (name :: up))
    | some node => .ok (.taken (name :: up) node)

/-- Under a name nothing is missing: the name is free. -/
theorem entry_ne_notFound (disk : Disk) (up : Location) (name : String) :
    disk.entry up name ≠ .error .notFound := by
  rw [entry]
  split
  · simp
  · split <;> simp

theorem entry_free_iff :
    disk.entry up name = .ok (.free (name :: up)) ↔
      name.utf8ByteSize ≤ nameLimit ∧ disk.node? (name :: up) = none := by
  rw [entry, ← Nat.not_lt]
  split
  · simp_all
  · cases hnode : disk.node? (name :: up) <;> simp_all

theorem entry_taken_iff {node : Node} :
    disk.entry up name = .ok (.taken (name :: up) node) ↔
      name.utf8ByteSize ≤ nameLimit ∧ disk.node? (name :: up) = some node := by
  rw [entry, ← Nat.not_lt]
  split
  · simp_all
  · cases hnode : disk.node? (name :: up) <;> simp_all

/-- What is found under a name stands under the name. -/
theorem entry_location {place : Place} (h : disk.entry up name = .ok place) :
    place = .free (name :: up) ∨ ∃ node, place = .taken (name :: up) node := by
  rw [entry] at h
  split at h
  · cases h
  · split at h
    · cases h
      exact .inl rfl
    · cases h
      exact .inr ⟨_, rfl⟩

/-- A step down in a directory finds what stands there under the name, unless that is a link. -/
theorem advance_entry (hdir : disk.node? up = some .dir)
    (hno : ∀ target, disk.node? (name :: up) ≠ some (.link target)) (follow : Bool) :
    disk.advance follow up [.down name] = (disk.entry up name).map .arrived := by
  rw [advance_down, if_pos (isDir_eq_true hdir), entry]
  split
  · rfl
  · cases hnode : disk.node? (name :: up) with
    | none => rfl
    | some node =>
      cases node with
      | link target => exact absurd hnode (hno target)
      | file bytes => simp only [advance_nil, hnode, Except.map]
      | dir => simp only [advance_nil, hnode, Except.map]

/-- The way of a standing path before a joined name ends at the place of the path. -/
theorem StandsAt.travel_front (h : disk.StandsAt path up) (hdir : disk.node? up = some .dir) :
    disk.travel true linkLimit (path.origin disk.home) (walkOf path.front) =
      .ok (.taken up .dir) := by
  rcases h with ⟨hempty, rfl⟩ | hstatus
  · have hpath : path = ⟨""⟩ := congrArg Path.mk hempty
    subst hpath
    have hhere : disk.node? ((⟨""⟩ : Path).origin disk.home) = some .dir := hdir
    refine travel_of_arrived ?_
    show disk.advance true _ [] = _
    rw [advance_nil, hhere]
    rfl
  · obtain ⟨-, htravel⟩ := status_ok_iff_travel.mp hstatus
    obtain ⟨stays, hsteps⟩ := path.exists_steps_eq_front
    rw [hsteps] at htravel
    simpa using (travel_stays_iff stays 0).mp htravel

/-! ### Paths of entries -/

/-- The path, without the slashes at its end, names an entry of a standing directory, and the entry
    is no link. -/
structure IsEntry (disk : Disk) (path : Path) (up : Location) (name : String) : Prop where
  isName : IsName name
  dir : disk.node? up = some .dir
  noLink : ∀ target, disk.node? (name :: up) ≠ some (.link target)
  stands : ∃ parent : Path, path.withoutSlashes = parent.join name ∧ disk.StandsAt parent up

/-- An entry stays one. -/
theorem IsEntry.grows (h : before.IsEntry path up name) (hgrows : before.Grows after) :
    after.IsEntry path up name := by
  obtain ⟨parent, hpath, hstands⟩ := h.stands
  exact ⟨h.isName, hgrows.dir h.dir, fun target hlink => h.noLink target
    ((hgrows.link_iff _ _).mp hlink), parent, hpath, hstands.grows hgrows⟩

/-- The steps of an entry's path end at what stands there under the name. -/
theorem IsEntry.travel (h : disk.IsEntry path up name) (follow : Bool) :
    disk.travel follow linkLimit (path.origin disk.home) path.withoutSlashes.steps =
      disk.entry up name := by
  obtain ⟨parent, hpath, hstands⟩ := h.stands
  have horigin : path.origin disk.home = parent.origin disk.home := by
    rw [Path.origin, Path.origin, ← path.trims_withoutSlashes.absolute, hpath,
      parent.isAbsolute_join h.isName]
  rw [horigin, hpath, parent.steps_join h.isName]
  exact travel_append (.inl (List.cons_ne_nil _ _)) (hstands.travel_front h.dir)
    (advance_entry h.dir h.noLink follow)

/-- An entry's path that can be followed on some disk ends at what stands there under the name. -/
theorem IsEntry.locateEntry (h : disk.IsEntry path up name) {place : Place} :
    disk.locateEntry path = .ok place ↔ path.fault? = none ∧ disk.entry up name = .ok place := by
  rw [locateEntry_ok_iff, h.travel]

/-- An entry's path leads to a directory if one stands there under the name. -/
theorem IsEntry.leadsToDir_iff (h : disk.IsEntry path up name) :
    disk.leadsToDir path = true ↔
      path.fault? = none ∧ disk.entry up name = .ok (.taken (name :: up) .dir) := by
  have htrims := path.trims_withoutSlashes
  have hstatus : ∀ location, disk.status path = .ok (location, .dir) ↔
      path.fault? = none ∧ disk.entry up name = .ok (.taken location .dir) := by
    intro location
    rw [status_ok_iff_travel, ← travel_of_trims htrims, Path.origin, htrims.absolute]
    exact and_congr_right' (by rw [← h.travel true]; rfl)
  constructor
  · intro hleads
    rw [leadsToDir] at hleads
    split at hleads
    · rename_i location hfound
      obtain ⟨hfault, hentry⟩ := (hstatus location).mp hfound
      obtain hplace | ⟨node, hplace⟩ := entry_location hentry
      · cases hplace
      · cases hplace
        exact ⟨hfault, hentry⟩
    · cases hleads
  · intro hentry
    rw [leadsToDir, (hstatus _).mpr hentry]

/-! ### Making directories -/

/-- An entry's path is not empty. -/
theorem IsEntry.text_ne (h : disk.IsEntry path up name) : path.text ≠ "" := by
  obtain ⟨parent, hpath, -⟩ := h.stands
  intro hempty
  have hbare : path.withoutSlashes = path := by
    rw [show path = ⟨""⟩ from congrArg Path.mk hempty]
    rfl
  rw [hbare] at hpath
  exact parent.toList_join_ne_nil h.isName (by rw [← hpath, hempty]; rfl)

/-- For an entry no directory but its own has to be made. -/
theorem IsEntry.makeDirs_eq (h : disk.IsEntry path up name) :
    disk.makeDirs path = disk.ensureDir path := by
  obtain ⟨hempty, -⟩ | ⟨-, hdone⟩ | ⟨-, hnone, -⟩ := disk.makeDirsUpTo_cases path.text.length path
  · exact absurd hempty h.text_ne
  · exact hdone
  -- Nothing is missing: the directory that the entry stands in is there.
  rw [makeDir, Disk.locateEntry, h.travel] at hnone
  cases hfault : path.fault? with
  | some e =>
    have hother : e ≠ .notFound := by
      rintro rfl
      rw [Path.fault?, if_neg (by simpa using h.text_ne)] at hfault
      split at hfault
      · cases hfault
      · split at hfault <;> cases hfault
    rw [hfault] at hnone
    exact absurd (Except.error.inj hnone) hother
  | none =>
    rw [hfault] at hnone
    cases hentry : disk.entry up name with
    | error e =>
      rw [hentry] at hnone
      exact absurd (hentry.trans (congrArg _ (Except.error.inj hnone))) (disk.entry_ne_notFound up name)
    | ok place =>
      rw [hentry] at hnone
      cases place <;> cases hnone

/-- Under a free name the directory of an entry is made. -/
theorem IsEntry.makeDirs_of_free (h : disk.IsEntry path up name) (hfault : path.fault? = none)
    (hsize : name.utf8ByteSize ≤ nameLimit) (hnone : disk.node? (name :: up) = none) :
    disk.makeDirs path = (.ok (), disk.put (name :: up) .dir) := by
  have hplace := h.locateEntry.mpr ⟨hfault, entry_free_iff.mpr ⟨hsize, hnone⟩⟩
  rw [h.makeDirs_eq, ensureDir, makeDir, hplace]
  rfl

/-- Where the directory of an entry is there already nothing is done. -/
theorem IsEntry.makeDirs_of_dir (h : disk.IsEntry path up name) (hfault : path.fault? = none)
    (hsize : name.utf8ByteSize ≤ nameLimit) (hdir : disk.node? (name :: up) = some .dir) :
    disk.makeDirs path = (.ok (), disk) := by
  have hentry := entry_taken_iff.mpr ⟨hsize, hdir⟩
  have hmake : disk.makeDir path = .error .alreadyExists := by
    rw [makeDir, h.locateEntry.mpr ⟨hfault, hentry⟩]
    rfl
  rw [h.makeDirs_eq, ensureDir, hmake]
  simp only [h.leadsToDir_iff.mpr ⟨hfault, hentry⟩, if_true]

/-- **Directories of entries.** The directory of an entry can be made only if its name is free, or
    if it is there already. -/
theorem IsEntry.of_makeDirs (h : disk.IsEntry path up name)
    (hok : (disk.makeDirs path).1 = .ok ()) :
    path.fault? = none ∧ name.utf8ByteSize ≤ nameLimit ∧
      (disk.node? (name :: up) = none ∨ disk.node? (name :: up) = some .dir) := by
  have htaken : disk.leadsToDir path = true → path.fault? = none ∧ name.utf8ByteSize ≤ nameLimit ∧
      disk.node? (name :: up) = some .dir := fun hleads =>
    ⟨(h.leadsToDir_iff.mp hleads).1, entry_taken_iff.mp (h.leadsToDir_iff.mp hleads).2⟩
  rw [h.makeDirs_eq, ensureDir] at hok
  split at hok
  · rename_i changed hmake
    rw [makeDir] at hmake
    cases hplace : disk.locateEntry path with
    | error e =>
      rw [hplace] at hmake
      cases hmake
    | ok place =>
      obtain ⟨hfault, hentry⟩ := h.locateEntry.mp hplace
      obtain rfl | ⟨node, rfl⟩ := entry_location hentry
      · obtain ⟨hsize, hnone⟩ := entry_free_iff.mp hentry
        exact ⟨hfault, hsize, .inl hnone⟩
      · rw [hplace] at hmake
        cases hmake
  · split at hok
    · rename_i hleads
      obtain ⟨hfault, hsize, hdir⟩ := htaken hleads
      exact ⟨hfault, hsize, .inr hdir⟩
    · cases hok

/-- On disks that agree on an entry its directory is made alike. -/
theorem AgreeOn.makeDirs (hagree : AgreeOn on disk other) (hon : on (name :: up))
    (h : disk.IsEntry path up name) (h' : other.IsEntry path up name)
    (hok : (disk.makeDirs path).1 = .ok ()) :
    (other.makeDirs path).1 = .ok () ∧
      AgreeOn on (disk.makeDirs path).2 (other.makeDirs path).2 ∧
      (disk.makeDirs path).2.node? (name :: up) = some .dir := by
  have hsame := hagree.node _ hon
  obtain ⟨hfault, hsize, hnone | hdir⟩ := h.of_makeDirs hok
  · rw [h.makeDirs_of_free hfault hsize hnone,
      h'.makeDirs_of_free hfault hsize (hsame.trans hnone)]
    exact ⟨rfl, hagree.put name up .dir, node?_put_self ..⟩
  · rw [h.makeDirs_of_dir hfault hsize hdir, h'.makeDirs_of_dir hfault hsize (hsame.trans hdir)]
    exact ⟨rfl, hagree, hdir⟩

/-! ### Writing files -/

/-- An entry's path that does not end in a slash is followed to what stands there under the
    name. -/
theorem IsEntry.locate (h : disk.IsEntry path up name) (hslash : path.endsInSlash = false)
    {place : Place} :
    disk.locate true path = .ok place ↔ path.fault? = none ∧ disk.entry up name = .ok place := by
  have htravel := h.travel true
  rw [Path.withoutSlashes_of_not_endsInSlash (by simpa using h.text_ne) hslash] at htravel
  rw [locate_ok_iff, htravel]

/-- **Files of entries.** The file of an entry is written if its name is free, or if it is a file
    already. -/
theorem IsEntry.write_ok_iff (h : disk.IsEntry path up name) :
    disk.write path bytes = .ok after ↔
      (path.endsInSlash = false ∧ path.fault? = none ∧ name.utf8ByteSize ≤ nameLimit ∧
        (disk.node? (name :: up) = none ∨ ∃ old, disk.node? (name :: up) = some (.file old))) ∧
      after = disk.put (name :: up) (.file bytes) := by
  rw [write]
  constructor
  · intro hwrite
    cases hslash : path.endsInSlash with
    | true =>
      rw [hslash, if_pos rfl] at hwrite
      cases hplace : disk.locateEntry path <;> rw [hplace] at hwrite <;> cases hwrite
    | false =>
      rw [hslash, if_neg Bool.false_ne_true] at hwrite
      cases hplace : disk.locate true path with
      | error e =>
        rw [hplace] at hwrite
        cases hwrite
      | ok place =>
        rw [hplace] at hwrite
        obtain ⟨hfault, hentry⟩ := (h.locate hslash).mp hplace
        obtain rfl | ⟨node, rfl⟩ := entry_location hentry
        · cases hwrite
          obtain ⟨hsize, hnone⟩ := entry_free_iff.mp hentry
          exact ⟨⟨rfl, hfault, hsize, .inl hnone⟩, rfl⟩
        · obtain ⟨hsize, hnode⟩ := entry_taken_iff.mp hentry
          cases node with
          | file old =>
            cases hwrite
            exact ⟨⟨rfl, hfault, hsize, .inr ⟨old, hnode⟩⟩, rfl⟩
          | link target => cases hwrite
          | dir => cases hwrite
  · rintro ⟨⟨hslash, hfault, hsize, hnone | ⟨old, hold⟩⟩, rfl⟩
    · rw [hslash, if_neg Bool.false_ne_true,
        (h.locate hslash).mpr ⟨hfault, entry_free_iff.mpr ⟨hsize, hnone⟩⟩]
      rfl
    · rw [hslash, if_neg Bool.false_ne_true,
        (h.locate hslash).mpr ⟨hfault, entry_taken_iff.mpr ⟨hsize, hold⟩⟩]
      rfl

/-- On disks that agree on an entry its file is written alike, whatever is written. -/
theorem AgreeOn.write (hagree : AgreeOn on disk other) (hon : on (name :: up))
    (h : disk.IsEntry path up name) (h' : other.IsEntry path up name)
    (hwrite : disk.write path bytes = .ok after) (bytes' : ByteArray) :
    after = disk.put (name :: up) (.file bytes) ∧
      other.write path bytes' = .ok (other.put (name :: up) (.file bytes')) := by
  obtain ⟨hfits, hafter⟩ := h.write_ok_iff.mp hwrite
  rw [← hagree.node _ hon] at hfits
  exact ⟨hafter, h'.write_ok_iff.mpr ⟨hfits, rfl⟩⟩

/-- An entry that can be written can be written with other bytes, too. -/
theorem IsEntry.write_other (h : disk.IsEntry path up name) (hwrite : disk.write path bytes = .ok after)
    (bytes' : ByteArray) :
    disk.write path bytes' = .ok (disk.put (name :: up) (.file bytes')) :=
  h.write_ok_iff.mpr ⟨(h.write_ok_iff.mp hwrite).1, rfl⟩

/-- Of an entry that is written twice the second file counts. -/
theorem IsEntry.write_again (h : disk.IsEntry path up name) (hwrite : disk.write path bytes = .ok after)
    (bytes' : ByteArray) : after.write path bytes' = disk.write path bytes' := by
  obtain ⟨location, -, hfits, hafter⟩ := write_ok hwrite
  have hentry : after.IsEntry path up name := by
    rw [hafter]
    exact h.grows (changes_put_file hfits bytes).grows
  obtain ⟨⟨hslash, hfault, hsize, -⟩, rfl⟩ := h.write_ok_iff.mp hwrite
  rw [h.write_other hwrite, hentry.write_ok_iff]
  exact ⟨⟨hslash, hfault, hsize, .inr ⟨bytes, node?_put_self ..⟩⟩, (put_put ..).symm⟩

/-- **Copies to entries.** A file from elsewhere is copied to an entry just if its bytes can be
    written there. -/
theorem IsEntry.copyFile_ok_iff {source : Path} (h : disk.IsEntry path up name)
    (hout : ∀ origin node, disk.status source = .ok (origin, node) → origin ≠ name :: up) :
    disk.copyFile source path = .ok after ↔
      ∃ origin bytes, disk.status source = .ok (origin, .file bytes) ∧
        disk.write path bytes = .ok after := by
  -- The source is what it was when the entry has been emptied.
  have hkept : ∀ origin node, disk.status source = .ok (origin, node) →
      (disk.put (name :: up) (.file .empty)).node? origin = some node := by
    intro origin node hstatus
    rw [node?_put_of_ne _ _ (hout origin node hstatus)]
    exact (pathLeads_of_status hstatus).2
  simp only [copyFile, bind_ok_iff]
  constructor
  · rintro ⟨⟨origin, node⟩, hstatus, emptied, hempty, hcopy⟩
    obtain ⟨-, rfl⟩ := h.write_ok_iff.mp hempty
    rw [hkept origin node hstatus] at hcopy
    cases node with
    | link target => cases hcopy
    | dir => cases hcopy
    | file bytes => exact ⟨origin, bytes, hstatus, (h.write_again hempty bytes).symm.trans hcopy⟩
  · rintro ⟨origin, bytes, hstatus, hwrite⟩
    have hempty := h.write_other hwrite .empty
    refine ⟨(origin, .file bytes), hstatus, _, hempty, ?_⟩
    rw [hkept origin _ hstatus]
    exact (h.write_again hempty bytes).trans hwrite

end Disk

end PageLoom
