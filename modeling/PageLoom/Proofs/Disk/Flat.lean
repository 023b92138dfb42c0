import Mathlib.Data.List.Nodup
import PageLoom.Proofs.Disk.Scan

namespace PageLoom

/-!
# Directories that hold just files

A directory in which no directories and no links stand is listed and scanned entry by entry.

* `Disk.HoldsJust` — all that stands in a directory, if that is files;
* `Disk.HoldsJust.children_perm` — its entries;
* `Disk.HoldsJust.scan` — what a scan chooses from them.
-/

namespace Disk

/-- The files stand right in the directory at the location, each with its text, and nothing else
    does. -/
structure HoldsJust (disk : Disk) (location : Location) (files : List (String × String)) :
    Prop where
  nodup : (files.map Prod.fst).Nodup
  node_iff : ∀ name node, disk.node? (name :: location) = some node ↔
    ∃ text, (name, text) ∈ files ∧ node = .file text.toUTF8

variable {disk : Disk} {location : Location} {files : List (String × String)}

/-- The entries of the directory are the files. -/
theorem HoldsJust.children_perm (h : disk.HoldsJust location files) (wf : disk.WellFormed) :
    (disk.children location).Perm (files.map fun file => (file.1, .file file.2.toUTF8)) := by
  have hnodup : (files.map fun file => (file.1, Node.file file.2.toUTF8)).Nodup := by
    refine List.Nodup.of_map Prod.fst ?_
    rw [List.map_map]
    exact h.nodup
  have hchildren := List.Nodup.of_map Prod.fst (nodup_children wf location)
  refine (List.perm_ext_iff_of_nodup hchildren hnodup).mpr ?_
  rintro ⟨name, node⟩
  rw [mem_children_iff wf, h.node_iff, List.mem_map]
  constructor
  · rintro ⟨text, hfile, rfl⟩
    exact ⟨(name, text), hfile, rfl⟩
  · rintro ⟨⟨_, text⟩, hfile, hentry⟩
    cases hentry
    exact ⟨text, hfile, rfl⟩

/-- **Scanning files.** A scan of the directory succeeds. It finds the files that the filter
    chooses. -/
theorem HoldsJust.scan (h : disk.HoldsJust location files) (wf : disk.WellFormed) {root : Path}
    (hroot : disk.status root = .ok (location, .dir)) (order : ListingOrder)
    (filter : ExtensionFilter) :
    ∃ paths, disk.scan order root filter = .ok paths ∧
      paths.Perm ((files.filter fun file => filter.accepts (extensionOf? file.1)).map
        fun file => root.join file.1) := by
  let chosen (entry : String × Node) : List Path :=
    if filter.accepts (extensionOf? entry.1) then [root.join entry.1] else []
  have hperm := (order.perm root (disk.children location)).trans (h.children_perm wf)
  have hlimit : pathLimit = 4095 + 1 := rfl
  refine ⟨((order.arrange root (disk.children location)).map chosen).flatten, ?_, ?_⟩
  · rw [Disk.scan, hlimit, scanWithin_succ_ok_iff]
    refine ⟨location, _, hroot, rfl, List.forall₂_map_right_iff.mpr (List.forall₂_same.mpr ?_)⟩
    -- None of the entries is a directory to be scanned in turn.
    intro entry hentry
    obtain ⟨file, -, rfl⟩ := List.mem_map.mp (hperm.mem_iff.mp hentry)
    exact .inr ⟨by simp, rfl⟩
  · refine (hperm.map chosen).flatten.trans (.of_eq ?_)
    clear hperm h
    induction files with
    | nil => rfl
    | cons file files ih =>
      rw [List.map_cons, List.map_cons, List.flatten_cons, ih, List.filter_cons]
      by_cases haccepts : filter.accepts (extensionOf? file.1) = true
      · simp only [chosen, if_pos haccepts, List.map_cons, List.singleton_append]
      · simp only [chosen, if_neg haccepts, List.nil_append]

end Disk

end PageLoom
