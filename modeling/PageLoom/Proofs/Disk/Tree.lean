import PageLoom.Disk.Basic
import PageLoom.Proofs.Disk.Spelling

namespace PageLoom

/-!
# Disks as trees

A disk is a list of nodes with their locations. It is the record of a tree if no location is
listed twice, if every node stands in a directory, and if every name is one that a path can
spell. Then a lookup and the list of a directory's entries tell the same.

* `Disk.WellFormed` — the disks that record a tree;
* `Disk.mem_children_iff` — the entries of a directory are the nodes right below it;
* `Disk.Grows` — what changes of a disk have in common: nothing is removed, links and
  directories stay, and files stay files.
-/

/-- How what stands at a place may change: not at all, from nothing to a directory or a file, or
    from a file to one with other bytes. -/
inductive Node.Becomes : Option Node → Option Node → Prop
  | same (node : Option Node) : Becomes node node
  | dir : Becomes none (some .dir)
  | file (bytes : ByteArray) : Becomes none (some (.file bytes))
  | rewritten (old new : ByteArray) : Becomes (some (.file old)) (some (.file new))

namespace Disk

/-! ### Lookups -/

@[simp] theorem node?_nil (disk : Disk) : disk.node? [] = some .dir := rfl

/-- Below the root a lookup searches the list of nodes. -/
theorem node?_of_ne_nil (disk : Disk) {location : Location} (h : location ≠ []) :
    disk.node? location = disk.nodes.lookup location :=
  if_neg h

/-- A lookup finds what the list holds. -/
theorem mem_nodes_of_node? {disk : Disk} {location : Location} {node : Node}
    (hne : location ≠ []) (h : disk.node? location = some node) :
    (location, node) ∈ disk.nodes := by
  rw [disk.node?_of_ne_nil hne, List.lookup_eq_some_iff] at h
  obtain ⟨before, after, hnodes, -⟩ := h
  rw [hnodes]
  simp

/-- Where no location is listed twice, a lookup finds all that the list holds. -/
theorem node?_of_mem_nodes {disk : Disk} {location : Location} {node : Node}
    (hnodup : (disk.nodes.map Prod.fst).Nodup) (hne : location ≠ [])
    (h : (location, node) ∈ disk.nodes) : disk.node? location = some node := by
  rw [disk.node?_of_ne_nil hne]
  obtain ⟨nodes, home⟩ := disk
  simp only at hnodup h ⊢
  induction nodes with
  | nil => simp at h
  | cons entry nodes ih =>
    rw [List.map_cons, List.nodup_cons] at hnodup
    rcases List.mem_cons.mp h with rfl | h
    · simp
    · have hother : location ≠ entry.1 := by
        rintro rfl
        exact hnodup.1 (List.mem_map.mpr ⟨_, h, rfl⟩)
      rw [List.lookup_cons, beq_eq_false_iff_ne.mpr hother]
      exact ih hnodup.2 h

/-- After putting a node below the root, the node is there and all else is as before. -/
theorem node?_put (disk : Disk) {location : Location} (node : Node) (hne : location ≠ [])
    (other : Location) :
    (disk.put location node).node? other =
      if other = location then some node else disk.node? other := by
  by_cases hroot : other = []
  · subst hroot
    rw [if_neg (Ne.symm hne)]
    rfl
  · rw [node?_of_ne_nil _ hroot, node?_of_ne_nil _ hroot, put, List.lookup_cons]
    by_cases h : other = location
    · simp [h]
    · rw [if_neg h, beq_eq_false_iff_ne.mpr h]
      simp only
      induction disk.nodes with
      | nil => rfl
      | cons entry nodes ih =>
        by_cases he : entry.1 = location
        · have hskip : (other == entry.1) = false := by rw [he]; exact beq_eq_false_iff_ne.mpr h
          rw [List.filter_cons_of_neg (by simp [he]), List.lookup_cons, hskip]
          exact ih
        · rw [List.filter_cons_of_pos (by simp [he]), List.lookup_cons, List.lookup_cons]
          cases other == entry.1
          · exact ih
          · rfl

/-- The node that was put is there. -/
@[simp] theorem node?_put_self (disk : Disk) (name : String) (up : Location) (node : Node) :
    (disk.put (name :: up) node).node? (name :: up) = some node := by
  rw [node?_put _ _ (List.cons_ne_nil _ _), if_pos rfl]

/-- Elsewhere nothing changes. -/
theorem node?_put_of_ne (disk : Disk) {name : String} {up other : Location} (node : Node)
    (h : other ≠ name :: up) : (disk.put (name :: up) node).node? other = disk.node? other := by
  rw [node?_put _ _ (List.cons_ne_nil _ _), if_neg h]

/-- Of two nodes put at one place the second one counts. -/
theorem put_put (disk : Disk) (location : Location) (first second : Node) :
    (disk.put location first).put location second = disk.put location second := by
  simp [put, List.filter_filter]

/-! ### Trees -/

/-- The disk records a tree: no location is listed twice, every node stands in a directory, and
    every name can be spelled. -/
structure WellFormed (disk : Disk) : Prop where
  nodup : (disk.nodes.map Prod.fst).Nodup
  rooted : ∀ entry ∈ disk.nodes, entry.1 ≠ [] ∧ disk.node? entry.1.tail = some .dir
  named : ∀ entry ∈ disk.nodes, ∀ name ∈ entry.1.head?, IsName name

variable {disk : Disk}

/-- A node stands in a directory. -/
theorem WellFormed.parent (wf : disk.WellFormed) {name : String} {up : Location} {node : Node}
    (h : disk.node? (name :: up) = some node) : disk.node? up = some .dir :=
  (wf.rooted _ (mem_nodes_of_node? (List.cons_ne_nil _ _) h)).2

/-- The name of a node can be spelled. -/
theorem WellFormed.isName (wf : disk.WellFormed) {name : String} {up : Location} {node : Node}
    (h : disk.node? (name :: up) = some node) : IsName name :=
  wf.named _ (mem_nodes_of_node? (List.cons_ne_nil _ _) h) name rfl

/-- All that a node stands below are directories. -/
theorem WellFormed.above (wf : disk.WellFormed) {names up : Location} {node : Node}
    (hne : names ≠ []) (h : disk.node? (names ++ up) = some node) :
    disk.node? up = some .dir := by
  induction names generalizing node with
  | nil => exact absurd rfl hne
  | cons name names ih =>
    have hparent := wf.parent h
    by_cases hnames : names = []
    · rwa [hnames] at hparent
    · exact ih hnames hparent

/-- **Entries.** The entries of a directory are the nodes right below it. -/
theorem mem_children_iff (wf : disk.WellFormed) {location : Location} {name : String}
    {node : Node} :
    (name, node) ∈ disk.children location ↔ disk.node? (name :: location) = some node := by
  simp only [children, List.mem_filterMap]
  constructor
  · rintro ⟨⟨place, found⟩, hmem, hentry⟩
    cases place with
    | nil => simp at hentry
    | cons first up =>
      simp only [Option.ite_none_right_eq_some, Option.some.injEq, Prod.mk.injEq] at hentry
      obtain ⟨rfl, rfl, rfl⟩ := hentry
      exact node?_of_mem_nodes wf.nodup (List.cons_ne_nil _ _) hmem
  · intro h
    exact ⟨(name :: location, node), mem_nodes_of_node? (List.cons_ne_nil _ _) h, by simp⟩

/-- The names in a directory are distinct. -/
theorem nodup_children (wf : disk.WellFormed) (location : Location) :
    ((disk.children location).map Prod.fst).Nodup := by
  have hnodup := wf.nodup
  rw [children]
  -- Only that no location is listed twice is needed of the tree.
  clear wf
  generalize disk.nodes = nodes at hnodup ⊢
  induction nodes with
  | nil => simp
  | cons entry nodes ih =>
    rw [List.map_cons, List.nodup_cons] at hnodup
    obtain ⟨place, node⟩ := entry
    cases place with
    | nil => simpa using ih hnodup.2
    | cons first up =>
      by_cases hup : up = location
      · subst hup
        simp only [List.filterMap_cons, if_true, List.map_cons, List.nodup_cons]
        -- Another entry of this name here would be listed at the same location.
        refine ⟨fun hmem => hnodup.1 ?_, ih hnodup.2⟩
        simp only [List.mem_map, List.mem_filterMap] at hmem
        obtain ⟨⟨name, found⟩, ⟨⟨other, kept⟩, hother, hentry⟩, hname⟩ := hmem
        cases other with
        | nil => simp at hentry
        | cons second up' =>
          simp only [Option.ite_none_right_eq_some, Option.some.injEq, Prod.mk.injEq] at hentry hname
          obtain ⟨rfl, rfl, rfl⟩ := hentry
          subst hname
          exact List.mem_map.mpr ⟨_, hother, rfl⟩
      · simpa [hup] using ih hnodup.2

/-- A tree with a node put into one of its directories is a tree, unless the node replaces a
    directory by something else. -/
theorem WellFormed.put (wf : disk.WellFormed) {name : String} {up : Location} {node : Node}
    (hname : IsName name) (hup : disk.node? up = some .dir)
    (hkeep : disk.node? (name :: up) = some .dir → node = .dir) :
    (disk.put (name :: up) node).WellFormed := by
  have hself : up ≠ name :: up := fun h => List.cons_ne_self _ _ h.symm
  refine ⟨?_, ?_, ?_⟩
  · show ((name :: up) :: (disk.nodes.filter _).map Prod.fst).Nodup
    refine List.nodup_cons.mpr ⟨fun hmem => ?_, wf.nodup.sublist (List.filter_sublist.map _)⟩
    obtain ⟨entry, hentry, heq⟩ := List.mem_map.mp hmem
    simpa [heq] using (List.mem_filter.mp hentry).2
  · intro entry hentry
    rcases List.mem_cons.mp hentry with rfl | hentry
    · exact ⟨List.cons_ne_nil _ _, by rw [List.tail_cons, node?_put_of_ne _ _ hself, hup]⟩
    · obtain ⟨hne, hdir⟩ := wf.rooted entry (List.mem_filter.mp hentry).1
      refine ⟨hne, ?_⟩
      by_cases hplace : entry.1.tail = name :: up
      · rw [hplace] at hdir ⊢
        rw [node?_put_self, hkeep hdir]
      · rw [node?_put_of_ne _ _ hplace, hdir]
  · intro entry hentry found hfound
    rcases List.mem_cons.mp hentry with rfl | hentry
    · cases hfound
      exact hname
    · exact wf.named entry (List.mem_filter.mp hentry).1 found hfound

/-! ### Growth -/

/-- One disk grew into another one: nothing was removed, links and directories are as they were,
    no link is new, and files stayed files. -/
structure Grows (before after : Disk) : Prop where
  home : after.home = before.home
  becomes : ∀ location, Node.Becomes (before.node? location) (after.node? location)

variable {before after : Disk}

theorem Grows.refl (disk : Disk) : disk.Grows disk :=
  ⟨rfl, fun _ => .same _⟩

/-- Growth goes on. -/
theorem Grows.trans {middle : Disk} (h : before.Grows middle) (h' : middle.Grows after) :
    before.Grows after := by
  refine ⟨h'.home.trans h.home, fun location => ?_⟩
  have hfirst := h.becomes location
  have hsecond := h'.becomes location
  -- Of the sixteen ways to go on those that fit together make one change.
  revert hfirst hsecond
  generalize before.node? location = old, middle.node? location = mid, after.node? location = new
  rintro (_ | _ | _ | _) (_ | _ | _ | _) <;> constructor

/-- Directories stay. -/
theorem Grows.dir (h : before.Grows after) {location : Location}
    (hdir : before.node? location = some .dir) : after.node? location = some .dir := by
  have hb := h.becomes location
  rw [hdir] at hb
  generalize after.node? location = new at hb
  cases hb
  rfl

/-- The links are the same. -/
theorem Grows.link_iff (h : before.Grows after) (location : Location) (target : Path) :
    after.node? location = some (.link target) ↔ before.node? location = some (.link target) := by
  have hb := h.becomes location
  generalize before.node? location = old, after.node? location = new at hb
  cases hb <;> simp

/-- What is there stays there. -/
theorem Grows.exists_node (h : before.Grows after) {location : Location} {node : Node}
    (hnode : before.node? location = some node) : ∃ node', after.node? location = some node' := by
  have hb := h.becomes location
  rw [hnode] at hb
  generalize after.node? location = new at hb
  cases hb
  · exact ⟨_, rfl⟩
  · exact ⟨_, rfl⟩

/-- Putting a node is growth if what stood there may become the node. -/
theorem Grows.put (disk : Disk) (name : String) (up : Location) {node : Node}
    (h : Node.Becomes (disk.node? (name :: up)) (some node)) :
    disk.Grows (disk.put (name :: up) node) := by
  refine ⟨rfl, fun location => ?_⟩
  by_cases hplace : location = name :: up
  · subst hplace
    rwa [node?_put_self]
  · rw [node?_put_of_ne _ _ hplace]
    exact .same _

end Disk

end PageLoom
