import Mathlib.Data.Finset.Card
import Mathlib.Data.List.Dedup
import PageLoom.Proofs.Disk.Entry
import PageLoom.Proofs.Site.Copy

namespace PageLoom

/-!
# What a walk reaches

A copy walks through a tree and follows its links, so it may come to one place on several ways. What
is reached is told by the names on the way, and the directories on the way are those that a link must
not lead back to. That ends every walk: a step down leads deeper into the tree, and each link that is
followed to a directory leads to one that was not on the way before.

* `Reached` — what the walk from a source reaches, and on which way;
* `Reached.unique`, `Reached.of_concat` — there is one way for the names, over each name in turn;
* `Disk.linkStatus_join`, `followEntry_cases` — how an entry of a directory is followed;
* `followEntry_grows`, `Reached.grows` — the same is reached on a disk that grew;
* `walkBound`, `Reached.length_lt` — how deep a walk can go.
-/

/-- From the source the names lead to a node, links followed, over the directories `above`, the
    nearest one first. No link on the way leads back to a directory that it was met in. -/
inductive Reached (disk : Disk) (source : Path) :
    List String → List Ancestor → Location → Node → Prop
  | root {location : Location} {node : Node} :
      followEntry [] source disk = .ok (location, node) → Reached disk source [] [] location node
  | entry {names : List String} {above : List Ancestor} {up location : Location} {name : String}
      {entry node : Node} :
      Reached disk source names above up .dir → disk.node? (name :: up) = some entry →
      followEntry (⟨up, source.joinAll names⟩ :: above) (source.joinAll (names ++ [name])) disk =
        .ok (location, node) →
      Reached disk source (names ++ [name]) (⟨up, source.joinAll names⟩ :: above) location node

variable {disk : Disk} {source path : Path} {names : List String} {name : String}
  {above : List Ancestor} {up location : Location} {node : Node}

/-! ### Ways -/

/-- What is reached is what the path leads to. -/
theorem Reached.status (h : Reached disk source names above location node) :
    disk.status (source.joinAll names) = .ok (location, node) := by
  cases h with
  | root hfollow => exact status_of_followEntry hfollow
  | entry _ _ hfollow => exact status_of_followEntry hfollow

/-- The path leads there. -/
theorem Reached.pathLeads (h : Reached disk source names above location node) :
    disk.PathLeads (source.joinAll names) location ∧ disk.node? location = some node :=
  Disk.pathLeads_of_status h.status

/-- The names on the way can be spelled. -/
theorem Reached.isName (wf : disk.WellFormed) (h : Reached disk source names above location node) :
    ∀ name ∈ names, IsName name := by
  induction h with
  | root => simp
  | entry _ hentry _ ih => exact List.forall_mem_append.mpr ⟨ih, by simpa using wf.isName hentry⟩

/-- There is a directory for each name. -/
theorem Reached.length_above (h : Reached disk source names above location node) :
    above.length = names.length := by
  induction h with
  | root => rfl
  | entry _ _ _ ih => rw [List.length_cons, List.length_append, List.length_singleton, ih]

/-- **Last names.** What is reached over one name more is an entry of a directory that is reached
    before. -/
theorem Reached.of_concat (h : Reached disk source (names ++ [name]) above location node) :
    ∃ before up entry, Reached disk source names before up .dir ∧
      disk.node? (name :: up) = some entry ∧ above = ⟨up, source.joinAll names⟩ :: before ∧
      followEntry above (source.joinAll (names ++ [name])) disk = .ok (location, node) := by
  generalize hall : names ++ [name] = all at h
  cases h with
  | root => simp at hall
  | @entry first before up _ last entry _ hup hentry hfollow =>
    obtain ⟨rfl, hlast⟩ := List.append_inj' hall rfl
    cases hlast
    exact ⟨before, up, entry, hup, hentry, rfl, hfollow⟩

/-- Over the same names the same is reached. -/
theorem Reached.unique {others : List Ancestor} {place : Location} {other : Node}
    (h : Reached disk source names above location node)
    (h' : Reached disk source names others place other) :
    above = others ∧ location = place ∧ node = other := by
  have hsame : (location, node) = (place, other) := Except.ok.inj (h.status.symm.trans h'.status)
  refine ⟨?_, Prod.mk.inj hsame⟩
  clear hsame
  induction h generalizing others place other with
  | root => exact (List.length_eq_zero_iff.mp h'.length_above).symm
  | entry hfirst _ _ ih =>
    obtain ⟨before, up, _, hup, -, rfl, -⟩ := h'.of_concat
    cases Except.ok.inj (hfirst.status.symm.trans hup.status)
    rw [ih hup]

/-- **First names.** Whatever is reached further down is reached over an entry of the directory. -/
theorem Reached.of_append {more : List String}
    (h : Reached disk source (names ++ name :: more) above location node) :
    ∃ before up entry, Reached disk source names before up .dir ∧
      disk.node? (name :: up) = some entry := by
  induction more using List.reverseRecOn generalizing above location node with
  | nil =>
    obtain ⟨before, up, entry, hup, hentry, -⟩ := h.of_concat
    exact ⟨before, up, entry, hup, hentry⟩
  | append_singleton more last ih =>
    rw [← List.cons_append, ← List.append_assoc] at h
    obtain ⟨before, up, -, hup, -⟩ := h.of_concat
    exact ih hup

/-! ### Entries -/

namespace Disk

/-- In a directory a step down that follows no link finds what stands there under the name. -/
theorem advance_entry_unfollowed (hdir : disk.node? up = some .dir) :
    disk.advance false up [.down name] = (disk.entry up name).map .arrived := by
  by_cases hlink : ∃ target, disk.node? (name :: up) = some (.link target)
  · obtain ⟨target, hlink⟩ := hlink
    rw [advance_down, if_pos (isDir_eq_true hdir), entry]
    split
    · rfl
    · rw [hlink]
      rfl
  · exact advance_entry hdir (not_exists.mp hlink) false

/-- The node of an entry's path is what stands in the directory under the name. -/
theorem linkStatus_join (hname : IsName name) (hpath : disk.status path = .ok (up, .dir))
    (h : disk.linkStatus (path.join name) = .ok (location, node)) :
    location = name :: up ∧ disk.node? (name :: up) = some node := by
  have hdir := (pathLeads_of_status hpath).2
  have hfront := StandsAt.travel_front (.inr hpath) hdir
  have horigin : (path.join name).origin disk.home = path.origin disk.home := by
    rw [Path.origin, Path.origin, path.isAbsolute_join hname]
  have htravel := (locate_ok_iff.mp (linkStatus_ok_iff.mp h)).2
  rw [horigin, path.steps_join hname,
    travel_append (.inl (List.cons_ne_nil _ _)) hfront (advance_entry_unfollowed hdir)] at htravel
  obtain hfree | ⟨found, htaken⟩ := entry_location htravel
  · cases hfree
  · cases htaken
    exact ⟨rfl, (entry_taken_iff.mp htravel).2⟩

end Disk

/-- **Entries.** An entry of a directory that is followed to a directory is that directory, or a link
    to one that is not on the way. -/
theorem followEntry_cases (hname : IsName name) (hpath : disk.status path = .ok (up, .dir))
    (h : followEntry above (path.join name) disk = .ok (location, .dir)) :
    location = name :: up ∨ location ∉ above.map Ancestor.location := by
  rw [followEntry] at h
  split at h
  · cases h
  · split at h
    · cases h
    · rename_i place hstatus
      cases hfind : above.find? (·.location = place) with
      | some ancestor =>
        rw [hfind] at h
        cases h
      | none =>
        rw [hfind] at h
        cases h
        refine .inr fun hmem => ?_
        obtain ⟨ancestor, hancestor, hplace⟩ := List.mem_map.mp hmem
        simpa [hplace] using List.find?_eq_none.mp hfind ancestor hancestor
    · rename_i hno hfound
      cases h
      exact absurd rfl (hno location)
  · rename_i hno hfound
    cases h
    exact .inl (Disk.linkStatus_join hname hpath hfound).1

/-! ### Walks on a disk that grew -/

/-- What stands somewhere on a disk that grew stood there before, except that files may have been
    written again. -/
theorem Disk.Grows.node_cases {after : Disk} (h : disk.Grows after) {new : Node}
    (hnode : disk.node? location = some node) (hnew : after.node? location = some new) :
    new = node ∨ ∃ old bytes, node = .file old ∧ new = .file bytes := by
  have hbecomes := h.becomes location
  rw [hnode, hnew] at hbecomes
  cases hbecomes with
  | same => exact .inl rfl
  | rewritten old bytes => exact .inr ⟨old, bytes, rfl, rfl⟩

/-- An entry that was followed is followed to the same place on a disk that grew. -/
theorem followEntry_grows {after : Disk} (hgrows : disk.Grows after) {new : Node}
    (hnew : after.node? location = some new)
    (h : followEntry above path disk = .ok (location, node)) :
    followEntry above path after = .ok (location, new) := by
  have hstatus := status_of_followEntry h
  have hnode := (Disk.pathLeads_of_status hstatus).2
  have hnolink : ∀ target, new = .link target → disk.node? location = some (.link target) := by
    rintro target rfl
    exact (hgrows.link_iff location target).mp hnew
  have hstatus' := hgrows.keeps.status hstatus hnew hnolink
  rw [followEntry] at h
  split at h
  · cases h
  · -- a link is the same link, and leads to the same place
    rename_i place target hlink
    have hplace := Disk.node?_of_linkStatus hlink
    have hkept := (hgrows.link_iff place target).mpr hplace
    have hlink' := hgrows.keeps.linkStatus hlink hkept fun _ heq => heq ▸ hplace
    rw [followEntry, hlink', hstatus']
    rw [hstatus] at h
    obtain rfl | ⟨old, bytes, rfl, rfl⟩ := hgrows.node_cases hnode hnew
    · exact h
    · rfl
  · -- what is no link is named as it was before
    rename_i hno hfound
    cases h
    rw [followEntry, hgrows.keeps.linkStatus hfound hnew hnolink]
    obtain rfl | ⟨old, bytes, -, rfl⟩ := hgrows.node_cases hnode hnew
    · split
      · rename_i heq
        cases heq
      · rename_i heq
        cases heq
        exact absurd rfl (hno _ _)
      · rename_i heq
        cases heq
        rfl
    · rfl

/-- **Growth.** What was reached is reached on a disk that grew, on the same way. -/
theorem Reached.grows {after : Disk} (h : Reached disk source names above location node)
    (hgrows : disk.Grows after) {new : Node} (hnew : after.node? location = some new) :
    Reached after source names above location new := by
  induction h generalizing new with
  | root hfollow => exact .root (followEntry_grows hgrows hnew hfollow)
  | entry hup hentry hfollow ih =>
    obtain ⟨entry, hentry⟩ := hgrows.exists_node hentry
    exact .entry (ih (hgrows.dir hup.pathLeads.2)) hentry
      (followEntry_grows hgrows hnew hfollow)

/-! ### How deep a walk goes -/

/-- The length of the longest location on the disk. -/
def Disk.height (disk : Disk) : Nat :=
  (disk.nodes.map (·.1.length)).foldr max 0

/-- More levels than any walk has: each directory on the way was reached straight down from one that
    a link led to, or from the source. -/
def Disk.walkBound (disk : Disk) : Nat :=
  (disk.nodes.length + 1) * (disk.height + 1)

/-- The locations on the disk, with the root. -/
def Disk.places (disk : Disk) : Finset Location :=
  ([] :: disk.nodes.map Prod.fst).toFinset

/-- Every node stands at one of them. -/
theorem Disk.mem_places (h : disk.node? location = some node) : location ∈ disk.places := by
  by_cases hne : location = []
  · simp [Disk.places, hne]
  · have hmem := Disk.mem_nodes_of_node? hne h
    simp only [Disk.places, List.mem_toFinset]
    exact List.mem_cons_of_mem _ (List.mem_map.mpr ⟨_, hmem, rfl⟩)

/-- No node stands further down than the disk is high. -/
theorem Disk.length_le_height (h : disk.node? location = some node) :
    location.length ≤ disk.height := by
  by_cases hne : location = []
  · simp [hne]
  · have hmem := Disk.mem_nodes_of_node? hne h
    have hmax : ∀ (lengths : List Nat), ∀ length ∈ lengths, length ≤ lengths.foldr max 0 := by
      intro lengths
      induction lengths with
      | nil => simp
      | cons first lengths ih =>
        intro length hlength
        rw [List.foldr_cons]
        rcases List.mem_cons.mp hlength with rfl | hlength
        · exact le_max_left _ _
        · exact (ih length hlength).trans (le_max_right _ _)
    exact hmax _ _ (List.mem_map.mpr ⟨_, hmem, rfl⟩)

/-- A directory that is reached, with those on the way to it. -/
def wayTo (above : List Ancestor) (location : Location) : List Location :=
  location :: above.map Ancestor.location

/-- All of them are directories. -/
theorem Reached.dir_of_mem_wayTo (h : Reached disk source names above location .dir) :
    ∀ place ∈ wayTo above location, disk.node? place = some .dir := by
  generalize hnode : Node.dir = node at h
  induction h with
  | root hfollow =>
    subst hnode
    simpa [wayTo] using (Disk.pathLeads_of_status (status_of_followEntry hfollow)).2
  | entry _ _ hfollow ih =>
    subst hnode
    intro place hplace
    rcases List.mem_cons.mp hplace with rfl | hplace
    · exact (Disk.pathLeads_of_status (status_of_followEntry hfollow)).2
    · exact ih rfl place hplace

/-- All that shorter names lead to is among them. -/
theorem Reached.mem_wayTo (h : Reached disk source names above location node)
    {fewer : List String} {place : Location} (hfewer : fewer <+: names)
    (hleads : disk.PathLeads (source.joinAll fewer) place) : place ∈ wayTo above location := by
  induction h with
  | root hfollow =>
    cases List.prefix_nil.mp hfewer
    cases (Reached.root hfollow).pathLeads.1.unique hleads
    exact List.mem_cons_self
  | entry hup hentry hfollow ih =>
    rcases List.prefix_concat_iff.mp hfewer with rfl | hfewer
    · cases (Reached.entry hup hentry hfollow).pathLeads.1.unique hleads
      exact List.mem_cons_self
    · exact List.mem_cons_of_mem _ (ih hfewer)

/-- **Measure.** The directories on a way are at most as many as the steps down below each that a
    link led to, for the links have led to different ones. -/
theorem Reached.length_wayTo (wf : disk.WellFormed)
    (h : Reached disk source names above location .dir) :
    (wayTo above location).length + disk.height ≤
      (wayTo above location).toFinset.card * (disk.height + 1) + location.length := by
  generalize hnode : Node.dir = node at h
  induction h with
  | root hfollow => simp [wayTo]; omega
  | @entry names above up location name entry node hup hentry hfollow ih =>
    subst hnode
    have hway := ih rfl
    have hheight := Disk.length_le_height hup.pathLeads.2
    rw [Path.joinAll_concat] at hfollow
    have hlength : (wayTo (⟨up, source.joinAll names⟩ :: above) location).length =
        (wayTo above up).length + 1 := by
      simp [wayTo]
    have hset : (wayTo (⟨up, source.joinAll names⟩ :: above) location).toFinset =
        insert location (wayTo above up).toFinset := by
      simp [wayTo]
    rw [hlength, hset]
    rcases followEntry_cases (wf.isName hentry) hup.status hfollow with rfl | hnew
    · -- one step down: as many directories, one level deeper
      have hcard := Finset.card_le_card (Finset.subset_insert (name :: up) (wayTo above up).toFinset)
      have hmul := Nat.mul_le_mul_right (disk.height + 1) hcard
      rw [List.length_cons]
      omega
    · -- a link: one directory more, at any level
      have hcard : (insert location (wayTo above up).toFinset).card =
          (wayTo above up).toFinset.card + 1 :=
        Finset.card_insert_of_notMem (by simpa [wayTo] using hnew)
      rw [hcard, Nat.succ_mul]
      omega

/-- **Depth.** No walk goes as deep as the bound. -/
theorem Reached.length_lt (wf : disk.WellFormed)
    (h : Reached disk source names above location .dir) : names.length < disk.walkBound := by
  have hway := h.length_wayTo wf
  have hheight := Disk.length_le_height h.pathLeads.2
  have hsubset : (wayTo above location).toFinset ⊆ disk.places := by
    intro place hplace
    exact Disk.mem_places (h.dir_of_mem_wayTo place (List.mem_toFinset.mp hplace))
  have hplaces : disk.places.card ≤ disk.nodes.length + 1 := by
    simpa [Disk.places] using List.toFinset_card_le ([] :: disk.nodes.map Prod.fst)
  have hcard := (Finset.card_le_card hsubset).trans hplaces
  have hmul := Nat.mul_le_mul_right (disk.height + 1) hcard
  have hlength : (wayTo above location).length = names.length + 1 := by
    rw [wayTo, List.length_cons, List.length_map, h.length_above]
  rw [Disk.walkBound]
  omega

end PageLoom
