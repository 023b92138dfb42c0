import PageLoom.Disk.Files
import PageLoom.Proofs.Disk.Kept

namespace PageLoom

/-!
# Standing directories

A path stands if no directory has to be made for it. It stands on while the disk grows, and so do
the paths that differ from it by what says nothing at their ends.

* `Disk.StandsAt`, `Disk.StandsAt.grows`, `Disk.StandsAt.trims` — paths that stand;
* `Disk.makeDirsUpTo_cases`, `Disk.StandsAt.makeDirsUpTo` — making directories, and where there is
  nothing to be made.
-/

namespace Disk

variable {disk before after : Disk} {location : Location}

/-- A path that is not empty and no longer than one that can be followed can be followed. -/
theorem fault?_of_trims {long short : Path} (h : long.Trims short) (hlong : long.fault? = none) :
    short.fault? = none := by
  obtain ⟨rest, hrest⟩ := h.start
  have htext : long.text = short.text ++ String.ofList rest := by
    rw [← String.toList_inj, hrest, String.toList_append, String.toList_ofList]
  simp only [Path.fault?] at hlong ⊢
  split at hlong
  · cases hlong
  · rename_i hempty
    split at hlong
    · cases hlong
    · rename_i hnul
      split at hlong
      · cases hlong
      · rename_i hsize
        rw [if_neg, if_neg, if_neg]
        · rw [htext, String.utf8ByteSize_append] at hsize
          omega
        · exact fun hmem => hnul (by rw [hrest]; exact List.mem_append_left _ hmem)
        · simp only [String.isEmpty_iff] at hempty ⊢
          intro hshort
          exact hempty (by simpa using h.nonempty (by simp [hshort]))

/-- A path that no directories have to be made for: one that leads to a directory, or the empty
    one. -/
def StandsAt (disk : Disk) (path : Path) (location : Location) : Prop :=
  (path.text = "" ∧ location = disk.home) ∨ disk.status path = .ok (location, .dir)

/-- A standing path leads to its place. -/
theorem StandsAt.pathLeads {path : Path} (h : disk.StandsAt path location) :
    disk.PathLeads path location := by
  rcases h with ⟨hempty, rfl⟩ | hstatus
  · have hpath : path = ⟨""⟩ := congrArg Path.mk hempty
    rw [hpath]
    exact .stay (.here _)
  · exact (pathLeads_of_status hstatus).1

/-- A standing path stands on. -/
theorem StandsAt.grows {path : Path} (h : before.StandsAt path location)
    (hgrows : before.Grows after) : after.StandsAt path location := by
  rcases h with ⟨hempty, rfl⟩ | hstatus
  · exact .inl ⟨hempty, hgrows.home.symm⟩
  · exact .inr (hgrows.keeps.status_dir hstatus)

/-- Trimming does not change where steps find a directory. -/
theorem travel_of_trims {long short : Path} (h : long.Trims short) (links : Nat) :
    disk.travel true links (short.origin disk.home) short.steps = .ok (.taken location .dir) ↔
      disk.travel true links (long.origin disk.home) long.steps = .ok (.taken location .dir) := by
  obtain ⟨way, more, less, hlong, hshort⟩ := h.steps
  have horigin : short.origin disk.home = long.origin disk.home := by
    rw [Path.origin, Path.origin, h.absolute]
  rw [horigin, hlong, hshort]
  exact travel_stays_iff less more

/-- A trimmed standing path stands. -/
theorem StandsAt.trims {long short : Path} (h : disk.StandsAt long location)
    (htrims : long.Trims short) : disk.StandsAt short location := by
  rcases h with ⟨hempty, rfl⟩ | hstatus
  · obtain ⟨rest, hrest⟩ := htrims.start
    refine .inl ⟨?_, rfl⟩
    rw [hempty] at hrest
    have hshort := (List.append_eq_nil_iff.mp hrest.symm).1
    rwa [← String.toList_eq_nil_iff]
  · refine .inr ?_
    rw [status_ok_iff_travel] at hstatus ⊢
    exact ⟨fault?_of_trims htrims hstatus.1, (travel_of_trims htrims _).mpr hstatus.2⟩

/-- **One level.** Making a directory with those that lead to it does nothing for the empty path,
    makes the directory, or first makes those that lead to its parent. -/
theorem makeDirsUpTo_cases (disk : Disk) (height : Nat) (path : Path) :
    (path.text = "" ∧ disk.makeDirsUpTo height path = (.ok (), disk)) ∨
    (path.text ≠ "" ∧ disk.makeDirsUpTo height path = disk.ensureDir path) ∨
    (path.text ≠ "" ∧ disk.makeDir path = .error .notFound ∧
      (disk.makeDirsUpTo height path = (.error .notFound, disk) ∨
       ∃ fewer parent, height = fewer + 1 ∧ path.parent? = some parent ∧
        ((∃ changed, disk.makeDirsUpTo fewer parent = (.ok (), changed) ∧
            disk.makeDirsUpTo height path = changed.ensureDir path) ∨
         ∃ e changed, disk.makeDirsUpTo fewer parent = (.error e, changed) ∧
            disk.makeDirsUpTo height path = (.error e, changed)))) := by
  -- It goes up only where there is height left and a parent to go up to.
  by_cases hup : ∃ fewer parent, height = fewer + 1 ∧ path.parent? = some parent
  · obtain ⟨fewer, parent, rfl, hparent⟩ := hup
    rw [makeDirsUpTo.eq_1 disk path fewer parent hparent]
    split
    · rename_i hempty
      exact .inl ⟨by simpa using hempty, rfl⟩
    rename_i hne
    refine .inr ?_
    rw [String.isEmpty_iff] at hne
    split
    · rename_i hnone
      refine .inr ⟨hne, hnone, .inr ⟨fewer, parent, rfl, hparent, ?_⟩⟩
      -- The path is tried again if the parents were made.
      cases hparents : disk.makeDirsUpTo fewer parent with
      | mk result changed =>
        cases result with
        | ok => exact .inl ⟨changed, rfl, rfl⟩
        | error e => exact .inr ⟨e, changed, rfl, rfl⟩
    · exact .inl ⟨hne, rfl⟩
  · rw [makeDirsUpTo.eq_2 disk path height fun fewer parent hheight hparent =>
      hup ⟨fewer, parent, hheight, hparent⟩]
    split
    · rename_i hempty
      exact .inl ⟨by simpa using hempty, rfl⟩
    rename_i hne
    refine .inr ?_
    rw [String.isEmpty_iff] at hne
    split
    · rename_i hnone
      exact .inr ⟨hne, hnone, .inl rfl⟩
    · exact .inl ⟨hne, rfl⟩

/-- **No work.** For a standing path no directory is made. -/
theorem StandsAt.makeDirsUpTo {path : Path} (h : disk.StandsAt path location) (height : Nat) :
    disk.makeDirsUpTo height path = (.ok (), disk) := by
  rcases h with ⟨hempty, -⟩ | hstatus
  · obtain ⟨-, hdone⟩ | ⟨hne, -⟩ | ⟨hne, -⟩ := disk.makeDirsUpTo_cases height path
    · exact hdone
    · exact absurd hempty hne
    · exact absurd hempty hne
  -- What is found with the last link followed is taken also for the one who makes a directory.
  have htaken : disk.makeDir path = .error .alreadyExists := by
    obtain ⟨hfault, htravel⟩ := status_ok_iff_travel.mp hstatus
    obtain ⟨place, other, hother⟩ :=
      travel_false_of_taken ((travel_of_trims path.trims_withoutSlashes _).mpr htravel)
    have horigin : path.withoutSlashes.origin disk.home = path.origin disk.home := by
      rw [Path.origin, Path.origin, path.trims_withoutSlashes.absolute]
    rw [horigin] at hother
    rw [makeDir, locateEntry_ok_iff.mpr ⟨hfault, hother⟩]
    rfl
  have hleads : disk.leadsToDir path = true := by
    rw [leadsToDir, hstatus]
  obtain ⟨-, hdone⟩ | ⟨-, hdone⟩ | ⟨-, hnone, -⟩ := disk.makeDirsUpTo_cases height path
  · exact hdone
  · rw [hdone, ensureDir, htaken, hleads]
    rfl
  · rw [htaken] at hnone
    cases hnone

end Disk

end PageLoom
