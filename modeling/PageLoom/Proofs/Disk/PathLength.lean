import PageLoom.Proofs.Disk.Entry

namespace PageLoom

/-!
# Paths that are too long

A path can be followed only if it is not too long. On the way down every name makes it longer, so
that below some depth nothing can be followed.

* `Disk.NamesFit` — names that a file system allows;
* `Disk.size_lt_of_status`, `Disk.size_lt_join` — how long paths are;
* `Disk.fault?_join`, `Disk.status_join_dir` — paths that are continued by a name.
-/

namespace Disk

variable {disk : Disk} {root : Path} {place : Location} {name : String}

/-- The names on the disk are ones that a file system allows: short enough, and without a NUL. -/
def NamesFit (disk : Disk) : Prop :=
  ∀ entry ∈ disk.nodes, ∀ name ∈ entry.1.head?,
    name.utf8ByteSize ≤ nameLimit ∧ '\x00' ∉ name.toList

/-- What stands under a name has a name that fits. -/
theorem NamesFit.of_node? (h : disk.NamesFit) {node : Node}
    (hnode : disk.node? (name :: place) = some node) :
    name.utf8ByteSize ≤ nameLimit ∧ '\x00' ∉ name.toList :=
  h _ (mem_nodes_of_node? (List.cons_ne_nil _ _) hnode) name rfl

/-- A path that can be followed is not empty, not too long, and has no NUL. -/
theorem size_lt_of_status {node : Node} (h : disk.status root = .ok (place, node)) :
    root.text.utf8ByteSize < pathLimit ∧ '\x00' ∉ root.text.toList ∧
      0 < root.text.utf8ByteSize := by
  have hfault := (status_ok_iff_travel.mp h).1
  rw [Path.fault?] at hfault
  split at hfault
  · cases hfault
  rename_i hempty
  split at hfault
  · cases hfault
  rename_i hnul
  split at hfault
  · cases hfault
  rename_i hsize
  exact ⟨Nat.lt_of_not_le hsize, hnul, by simpa [Nat.pos_iff_ne_zero] using hempty⟩

/-- A path that is continued by a name is longer by the name, or by one slash more. -/
theorem add_size_le_join (root : Path) (hname : IsName name) :
    root.text.utf8ByteSize + name.utf8ByteSize ≤ (root.join name).text.utf8ByteSize := by
  rw [root.join_eq_lead (isTight_of_isName hname).1, String.utf8ByteSize_append, Path.lead]
  split
  · omega
  · rw [String.utf8ByteSize_append]
    omega

/-- Every name makes a path longer. -/
theorem size_lt_join (root : Path) (hname : IsName name) :
    root.text.utf8ByteSize < (root.join name).text.utf8ByteSize := by
  have hne : name ≠ "" := fun hempty => hname.1 (by simp [hempty])
  have hpos : 0 < name.utf8ByteSize := by simpa [Nat.pos_iff_ne_zero] using hne
  have hjoin := add_size_le_join root hname
  omega

/-- A path that is continued by a name that fits can be followed, unless it is too long. -/
theorem fault?_join (hname : IsName name) (hfit : '\x00' ∉ name.toList)
    (hroot : '\x00' ∉ root.text.toList) :
    (root.join name).fault? =
      if (root.join name).text.utf8ByteSize < pathLimit then none else some .nameTooLong := by
  have hnul : '\x00' ∉ (root.join name).text.toList := by
    rw [root.join_eq_lead (isTight_of_isName hname).1, String.toList_append, Path.lead]
    split <;> simp [hroot, hfit]
  have hempty : ¬ (root.join name).text.isEmpty := by
    simpa using root.toList_join_ne_nil hname
  rw [Path.fault?, if_neg hempty, if_neg hnul]
  split <;> split <;> first | rfl | omega

/-- **Longer paths.** A directory in a directory that a path leads to is found by its own path if
    that is short enough, and cannot be read otherwise. -/
theorem status_join_dir (hfits : disk.NamesFit) (hname : IsName name)
    (hroot : disk.status root = .ok (place, .dir))
    (hdir : disk.node? (name :: place) = some .dir) :
    disk.status (root.join name) =
      if (root.join name).text.utf8ByteSize < pathLimit then .ok (name :: place, .dir)
      else .error .nameTooLong := by
  obtain ⟨hsize, hnul⟩ := hfits.of_node? hdir
  have hfault := fault?_join hname hnul (size_lt_of_status hroot).2.1
  split at hfault
  · have hentry : disk.IsEntry (root.join name) place name :=
      ⟨hname, (pathLeads_of_status hroot).2, by simp [hdir], root,
        Path.withoutSlashes_of_not_endsInSlash (root.toList_join_ne_nil hname)
          (root.endsInSlash_join hname), .inr hroot⟩
    rename_i hshort
    rw [if_pos hshort, status_ok_iff, hentry.locate (root.endsInSlash_join hname)]
    exact ⟨hfault, entry_taken_iff.mpr ⟨hsize, hdir⟩⟩
  · rename_i hlong
    rw [if_neg hlong, status, locate, hfault]
    rfl

end Disk

end PageLoom
