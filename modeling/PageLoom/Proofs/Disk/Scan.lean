import Mathlib.Data.List.Forall2
import Mathlib.Data.List.Perm.Basic
import PageLoom.Disk.Listing
import PageLoom.Proofs.Disk.Below

namespace PageLoom

/-!
# What a scan finds

A scan that succeeds finds each file below its root that the filter chooses, exactly once. Which
order they come in is up to the listing order; it depends on nothing but the entries of the
directories below the root.

* `Disk.FoundBelow` — the files that a scan should find;
* `Disk.scanWithin_ok` — those are found, each one once;
* `Disk.scanWithin_congr` — a scan finds the same on a disk with the same directories;
* `Disk.scan_relist` — so it does where the same directories are listed;
* `Disk.scan_reorder` — in another listing order it finds the same, in some other order.
-/

/-- Two computations succeed if the first one does and then the second one. -/
theorem bind_ok_iff {ε α β : Type} {first : Except ε α} {next : α → Except ε β} {value : β} :
    first >>= next = .ok value ↔ ∃ middle, first = .ok middle ∧ next middle = .ok value := by
  cases first <;> simp [bind, Except.bind]

/-- A computation on a list succeeds if it does on each element. -/
theorem mapM_ok_iff {ε α β : Type} {f : α → Except ε β} {entries : List α} {values : List β} :
    entries.mapM f = .ok values ↔
      List.Forall₂ (fun entry value => f entry = .ok value) entries values := by
  induction entries generalizing values with
  | nil => cases values <;> simp [pure, Except.pure]
  | cons entry entries ih =>
    rw [List.mapM_cons]
    cases hentry : f entry with
    | error e => cases values <;> simp [bind, Except.bind, hentry]
    | ok value =>
      cases hmore : entries.mapM f with
      | error e => cases values <;> simp [bind, Except.bind, ← ih, hmore, hentry]
      | ok more =>
        cases values <;> simp [bind, Except.bind, pure, Except.pure, ← ih, hmore, hentry]

/-- Computations that do the same on each element do the same on a list. -/
theorem mapM_congr {ε α β : Type} {f g : α → Except ε β} {entries : List α}
    (h : ∀ entry ∈ entries, f entry = g entry) : entries.mapM f = entries.mapM g := by
  induction entries with
  | nil => rfl
  | cons entry entries ih =>
    obtain ⟨hentry, hmore⟩ := List.forall_mem_cons.mp h
    rw [List.mapM_cons, List.mapM_cons, hentry, ih hmore]

/-- Pieces that belong to entries with different names make up a list without repetition, if
    each piece is one and no element belongs to two names. -/
theorem flatten_of_forall₂ {α β : Type} {entries : List (String × α)} {pieces : List (List β)}
    {belongs : String × α → β → Prop}
    (h : List.Forall₂ (fun entry piece => piece.Nodup ∧ ∀ value, value ∈ piece ↔ belongs entry value)
      entries pieces)
    (hnodup : (entries.map Prod.fst).Nodup)
    (hapart : ∀ entry ∈ entries, ∀ other ∈ entries, ∀ value,
      belongs entry value → belongs other value → entry.1 = other.1) :
    pieces.flatten.Nodup ∧
      ∀ value, value ∈ pieces.flatten ↔ ∃ entry ∈ entries, belongs entry value := by
  induction h with
  | nil => simp
  | @cons entry piece entries pieces hpiece hpieces ih =>
    rw [List.map_cons, List.nodup_cons] at hnodup
    obtain ⟨hrest, hmem⟩ := ih hnodup.2 fun first hfirst second hsecond =>
      hapart first (List.mem_cons_of_mem _ hfirst) second (List.mem_cons_of_mem _ hsecond)
    refine ⟨List.nodup_append.mpr ⟨hpiece.1, hrest, ?_⟩, fun value => ?_⟩
    · rintro value hfirst _ hlater rfl
      obtain ⟨other, hother, hbelongs⟩ := (hmem value).mp hlater
      refine hnodup.1 (List.mem_map.mpr ⟨other, hother, ?_⟩)
      exact hapart other (List.mem_cons_of_mem _ hother) entry List.mem_cons_self value hbelongs
        ((hpiece.2 value).mp hfirst)
    · rw [List.flatten_cons, List.mem_append, hpiece.2, hmem]
      simp

/-- Values for the entries of a list are found one by one, each beside the value that is there. -/
theorem exists_forall₂_beside {α β γ : Type} {entries : List α} {values : List β}
    {holds : α → β → Prop} {next : α → γ → Prop} {beside : β → γ → Prop}
    (h : List.Forall₂ holds entries values)
    (hnext : ∀ entry ∈ entries, ∀ value, holds entry value →
      ∃ other, next entry other ∧ beside value other) :
    ∃ others, List.Forall₂ next entries others ∧ List.Forall₂ beside values others := by
  induction h with
  | nil => exact ⟨[], .nil, .nil⟩
  | @cons entry value entries values hentry _ ih =>
    obtain ⟨other, hother, hbeside⟩ := hnext entry List.mem_cons_self value hentry
    obtain ⟨others, hothers, hbesides⟩ := ih fun entry hmem =>
      hnext entry (List.mem_cons_of_mem _ hmem)
    exact ⟨other :: others, .cons hother hothers, .cons hbeside hbesides⟩

namespace Disk

variable {disk before after : Disk} {order : ListingOrder} {filter : ExtensionFilter}
  {root path : Path} {place : Location} {paths : List Path}

/-- The path leads down from the root to a file or a link that the filter chooses, through
    directories. The root stands at `place`. -/
def FoundBelow (disk : Disk) (filter : ExtensionFilter) (root : Path) (place : Location)
    (path : Path) : Prop :=
  ∃ names name node, path = root.joinAll (names ++ [name]) ∧
    disk.node? (name :: (names.reverse ++ place)) = some node ∧ node ≠ .dir ∧
    filter.accepts (extensionOf? name) = true

/-- In a tree the names of what is found can be spelled. -/
theorem isName_of_node? (wf : disk.WellFormed) {names : List String} {node : Node}
    (h : disk.node? (names ++ place) = some node) : ∀ name ∈ names, IsName name := by
  induction names generalizing node with
  | nil => simp
  | cons first names ih =>
    intro name hname
    rcases List.mem_cons.mp hname with rfl | hname
    · exact wf.isName h
    · exact ih (wf.parent h) name hname

/-- The entries that are listed are those of the directory that the path leads to. -/
theorem list_ok_iff {entries : List (String × Node)} :
    disk.list root = .ok entries ↔
      ∃ location, disk.status root = .ok (location, .dir) ∧ entries = disk.children location := by
  simp only [list, bind_ok_iff]
  constructor
  · rintro ⟨⟨location, node⟩, hstatus, h⟩
    cases node with
    | file bytes => cases h
    | link target => cases h
    | dir =>
      cases h
      exact ⟨location, hstatus, rfl⟩
  · rintro ⟨location, hstatus, rfl⟩
    exact ⟨(location, .dir), hstatus, rfl⟩

/-- What the scan of a directory finds in one of its entries. -/
def ScannedAs (disk : Disk) (order : ListingOrder) (filter : ExtensionFilter) (depth : Nat)
    (root : Path) (entry : String × Node) (piece : List Path) : Prop :=
  (entry.2 = .dir ∧ disk.scanWithin order filter depth (root.join entry.1) = .ok piece) ∨
  (entry.2 ≠ .dir ∧
    piece = if filter.accepts (extensionOf? entry.1) then [root.join entry.1] else [])

/-- **One level.** A scan succeeds if the root can be listed and all directories in it can be
    scanned. -/
theorem scanWithin_succ_ok_iff {depth : Nat} :
    disk.scanWithin order filter (depth + 1) root = .ok paths ↔
      ∃ location pieces, disk.status root = .ok (location, .dir) ∧ paths = pieces.flatten ∧
        List.Forall₂ (disk.ScannedAs order filter depth root)
          (order.arrange root (disk.children location)) pieces := by
  rw [scanWithin]
  constructor
  · intro h
    cases hlist : disk.list root with
    | error e =>
      rw [hlist] at h
      cases h
    | ok entries =>
      obtain ⟨location, hstatus, rfl⟩ := list_ok_iff.mp hlist
      rw [hlist] at h
      obtain ⟨pieces, hpieces, hpaths⟩ := bind_ok_iff.mp h
      cases hpaths
      refine ⟨location, pieces, hstatus, rfl, (mapM_ok_iff.mp hpieces).imp ?_⟩
      -- A directory is scanned in turn; a file or a link is a piece by itself.
      rintro ⟨name, node⟩ piece hentry
      cases node with
      | dir => exact .inl ⟨rfl, hentry⟩
      | file bytes => exact .inr ⟨by simp, (Except.ok.inj hentry).symm⟩
      | link target => exact .inr ⟨by simp, (Except.ok.inj hentry).symm⟩
  · rintro ⟨location, pieces, hstatus, rfl, hpieces⟩
    rw [list_ok_iff.mpr ⟨location, hstatus, rfl⟩]
    refine bind_ok_iff.mpr ⟨pieces, mapM_ok_iff.mpr (hpieces.imp ?_), rfl⟩
    rintro ⟨name, node⟩ piece (⟨hdir, hscan⟩ | ⟨hother, hpiece⟩)
    · have hnode : node = .dir := hdir
      subst hnode
      exact hscan
    · rw [hpiece]
      cases node with
      | dir => exact absurd rfl hother
      | file bytes => rfl
      | link target => rfl

/-- What a scan should find in one entry of a directory: the entry itself, or what is found
    below it. -/
def FoundIn (disk : Disk) (filter : ExtensionFilter) (root : Path) (place : Location)
    (entry : String × Node) (path : Path) : Prop :=
  (entry.2 = .dir ∧ disk.FoundBelow filter (root.join entry.1) (entry.1 :: place) path) ∨
  (entry.2 ≠ .dir ∧ filter.accepts (extensionOf? entry.1) = true ∧ path = root.join entry.1)

/-- What is found in an entry has a path that goes on with the entry's name. -/
theorem FoundIn.exists_eq_joinAll (wf : disk.WellFormed) {entry : String × Node}
    (hentry : entry ∈ disk.children place) (h : disk.FoundIn filter root place entry path) :
    ∃ names, (∀ name ∈ entry.1 :: names, IsName name) ∧ path = root.joinAll (entry.1 :: names) := by
  have hself := wf.isName ((mem_children_iff wf).mp hentry)
  rcases h with ⟨hdir, names, name, node, rfl, hnode, -, -⟩ | ⟨-, -, rfl⟩
  · refine ⟨names ++ [name], fun other hother => ?_, rfl⟩
    rcases List.mem_cons.mp hother with rfl | hother
    · exact hself
    · have hplace : disk.node? ((name :: names.reverse) ++ entry.1 :: place) = some node := hnode
      exact isName_of_node? wf hplace other (by simpa [or_comm] using hother)
  · exact ⟨[], by simpa using hself, rfl⟩

/-- What is found below a directory is found in one of its entries. -/
theorem foundBelow_iff (wf : disk.WellFormed) :
    disk.FoundBelow filter root place path ↔
      ∃ entry ∈ disk.children place, disk.FoundIn filter root place entry path := by
  constructor
  · rintro ⟨names, name, node, rfl, hnode, hother, haccepts⟩
    cases names with
    | nil => exact ⟨(name, node), (mem_children_iff wf).mpr hnode, .inr ⟨hother, haccepts, rfl⟩⟩
    | cons first names =>
      rw [List.reverse_cons, List.append_assoc] at hnode
      have hplace : disk.node? ((name :: names.reverse) ++ first :: place) = some node := hnode
      have hfirst : disk.node? (first :: place) = some .dir := wf.above (by simp) hplace
      exact ⟨(first, .dir), (mem_children_iff wf).mpr hfirst,
        .inl ⟨rfl, names, name, node, rfl, hnode, hother, haccepts⟩⟩
  · rintro ⟨⟨first, entry⟩, hentry, ⟨hdir, names, name, node, rfl, hnode, hother, haccepts⟩ |
      ⟨hother, haccepts, rfl⟩⟩
    · refine ⟨first :: names, name, node, rfl, ?_, hother, haccepts⟩
      rwa [List.reverse_cons, List.append_assoc]
    · exact ⟨[], first, entry, rfl, (mem_children_iff wf).mp hentry, hother, haccepts⟩

/-- What the scan of a directory finds in an entry is what should be found there, each path once, if
    that is so for the directories in it. -/
theorem ScannedAs.found (wf : disk.WellFormed) {depth : Nat} {entry : String × Node}
    {piece : List Path} (hroot : disk.PathLeads root place)
    (hnode : disk.node? (entry.1 :: place) = some entry.2)
    (hbelow : disk.PathLeads (root.join entry.1) (entry.1 :: place) →
      disk.scanWithin order filter depth (root.join entry.1) = .ok piece →
      piece.Nodup ∧
        ∀ path, path ∈ piece ↔ disk.FoundBelow filter (root.join entry.1) (entry.1 :: place) path)
    (h : disk.ScannedAs order filter depth root entry piece) :
    piece.Nodup ∧ ∀ path, path ∈ piece ↔ disk.FoundIn filter root place entry path := by
  obtain ⟨name, node⟩ := entry
  rcases h with ⟨hdir, hscan⟩ | ⟨hother, hpiece⟩
  · cases hdir
    have hno : ∀ target, disk.node? (name :: place) ≠ some (.link target) := by simp [hnode]
    obtain ⟨hpiece, hmem⟩ :=
      hbelow ((pathLeads_join_iff (wf.isName hnode) hroot hno).mpr rfl) hscan
    exact ⟨hpiece, fun path => by simp [hmem, FoundIn]⟩
  -- Any other entry is found or passed over, as the filter says.
  · have hother' : node ≠ .dir := hother
    rw [hpiece]
    refine ⟨?_, fun path => ?_⟩
    · split <;> simp
    · by_cases haccepts : filter.accepts (extensionOf? name) = true
      · simp [FoundIn, hother', haccepts]
      · simp [FoundIn, hother', haccepts]

/-- **Scans.** A scan that succeeds finds each file below its root that the filter chooses, and
    none of them twice. -/
theorem scanWithin_ok (wf : disk.WellFormed) {depth : Nat} (hroot : disk.PathLeads root place)
    (h : disk.scanWithin order filter depth root = .ok paths) :
    paths.Nodup ∧ ∀ path, path ∈ paths ↔ disk.FoundBelow filter root place path := by
  induction depth generalizing root place paths with
  | zero => cases h
  | succ depth ih =>
    obtain ⟨location, pieces, hstatus, rfl, hpieces⟩ := scanWithin_succ_ok_iff.mp h
    cases (pathLeads_of_status hstatus).1.unique hroot
    have hperm := order.perm root (disk.children place)
    have hnodup : ((order.arrange root (disk.children place)).map Prod.fst).Nodup :=
      (hperm.map _).nodup_iff.mpr (nodup_children wf place)
    -- By the induction hypothesis each piece is what should be found in its entry.
    have hfound : List.Forall₂
        (fun entry piece => piece.Nodup ∧
          ∀ path, path ∈ piece ↔ disk.FoundIn filter root place entry path)
        (order.arrange root (disk.children place)) pieces := by
      have hmem : ∀ entry ∈ order.arrange root (disk.children place),
          disk.node? (entry.1 :: place) = some entry.2 :=
        fun entry hentry => (mem_children_iff wf).mp (hperm.mem_iff.mp hentry)
      exact ((List.forall₂_and_left _ _).mpr ⟨hmem, hpieces⟩).imp fun entry piece ⟨hnode, h⟩ =>
        h.found wf hroot hnode ih
    -- A path goes on with one name only, so no path is found in two entries.
    obtain ⟨hflat, hmem⟩ := flatten_of_forall₂ hfound hnodup fun entry hentry other hother path h h' => by
      obtain ⟨names, hnames, rfl⟩ := h.exists_eq_joinAll wf (hperm.mem_iff.mp hentry)
      obtain ⟨others, hothers, heq⟩ := h'.exists_eq_joinAll wf (hperm.mem_iff.mp hother)
      exact (List.cons.inj (Path.joinAll_inj hnames (by simp) hothers (by simp) heq)).1
    refine ⟨hflat, fun path => ?_⟩
    rw [hmem, foundBelow_iff wf]
    exact exists_congr fun entry => and_congr_left' hperm.mem_iff

/-- **Order.** What a scan finds on one disk it finds on another one, in the same order, if that
    has the directories and the links, and the entries of all directories below the root. -/
theorem scanWithin_congr (wf : after.WellFormed) {depth : Nat} (hkeeps : after.Keeps before)
    (hroot : after.PathLeads root place)
    (hchildren : ∀ location, place <:+ location →
      after.children location = before.children location)
    (h : after.scanWithin order filter depth root = .ok paths) :
    before.scanWithin order filter depth root = .ok paths := by
  induction depth generalizing root place paths with
  | zero => cases h
  | succ depth ih =>
    obtain ⟨location, pieces, hstatus, hpaths, hpieces⟩ := scanWithin_succ_ok_iff.mp h
    cases (pathLeads_of_status hstatus).1.unique hroot
    refine scanWithin_succ_ok_iff.mpr ⟨place, pieces, hkeeps.status_dir hstatus, hpaths, ?_⟩
    rw [← hchildren place List.suffix_rfl]
    have hmem : ∀ entry ∈ order.arrange root (after.children place),
        after.node? (entry.1 :: place) = some entry.2 :=
      fun entry hentry => (mem_children_iff wf).mp ((order.perm _ _).mem_iff.mp hentry)
    refine ((List.forall₂_and_left _ _).mpr ⟨hmem, hpieces⟩).imp ?_
    rintro ⟨name, node⟩ piece ⟨hnode, ⟨hdir, hscan⟩ | hother⟩
    · cases hdir
      have hnode' : after.node? (name :: place) = some .dir := hnode
      have hno : ∀ target, after.node? (name :: place) ≠ some (.link target) := by simp [hnode']
      have hbelow := (pathLeads_join_iff (wf.isName hnode') hroot hno).mpr rfl
      exact .inl ⟨rfl, ih hbelow
        (fun location hup => hchildren location ((List.suffix_cons _ _).trans hup)) hscan⟩
    · exact .inr hother

/-- **Same directories.** A scan finds the same, in the same order, on a disk where the same
    directories are listed. -/
theorem scan_relist {disk other : Disk} (wf : disk.WellFormed)
    (hlist : ∀ names, (∀ name ∈ names, IsName name) →
      other.list (root.joinAll names) = disk.list (root.joinAll names)) :
    other.scan order root filter = disk.scan order root filter := by
  rw [scan, scan]
  generalize pathLimit = depth
  induction depth generalizing root with
  | zero => rfl
  | succ depth ih =>
    rw [scanWithin, scanWithin, show other.list root = disk.list root from hlist [] (by simp)]
    cases hentries : disk.list root with
    | error e => rfl
    | ok entries =>
      obtain ⟨location, -, rfl⟩ := list_ok_iff.mp hentries
      refine congrArg (· >>= _) (mapM_congr fun entry hentry => ?_)
      obtain ⟨name, node⟩ := entry
      cases node with
      | file bytes => rfl
      | link target => rfl
      | dir =>
        have hname : IsName name :=
          wf.isName ((mem_children_iff wf).mp ((order.perm _ _).mem_iff.mp hentry))
        exact ih fun names hnames => hlist (name :: names) (List.forall_mem_cons.mpr ⟨hname, hnames⟩)

/-- What is found at most some levels deep is found in every listing order. -/
theorem scanWithin_reorder {first : ListingOrder} (second : ListingOrder) {disk other : Disk}
    (wf : disk.WellFormed) {depth : Nat}
    (hlist : ∀ names, (∀ name ∈ names, IsName name) →
      other.list (root.joinAll names) = disk.list (root.joinAll names))
    (h : disk.scanWithin first filter depth root = .ok paths) :
    ∃ paths', other.scanWithin second filter depth root = .ok paths' ∧ paths.Perm paths' := by
  induction depth generalizing root paths with
  | zero => cases h
  | succ depth ih =>
    obtain ⟨location, pieces, hstatus, rfl, hpieces⟩ := scanWithin_succ_ok_iff.mp h
    have hentries : other.list root = .ok (disk.children location) :=
      (hlist [] (by simp)).trans (list_ok_iff.mpr ⟨location, hstatus, rfl⟩)
    obtain ⟨place, hplace, hchildren⟩ := list_ok_iff.mp hentries
    -- Each entry gives a piece with the same paths; then the entries come in another order.
    have hpiece : ∀ entry ∈ first.arrange root (disk.children location), ∀ piece,
        disk.ScannedAs first filter depth root entry piece →
        ∃ piece', other.ScannedAs second filter depth root entry piece' ∧ piece.Perm piece' := by
      rintro ⟨name, node⟩ hentry piece (⟨hdir, hscan⟩ | ⟨hother, hpiece⟩)
      · have hname : IsName name :=
          wf.isName ((mem_children_iff wf).mp ((first.perm _ _).mem_iff.mp hentry))
        obtain ⟨piece', hscan', hsame⟩ := ih (fun names hnames => hlist (name :: names)
          (List.forall_mem_cons.mpr ⟨hname, hnames⟩)) hscan
        exact ⟨piece', .inl ⟨hdir, hscan'⟩, hsame⟩
      · exact ⟨piece, .inr ⟨hother, hpiece⟩, .refl _⟩
    obtain ⟨pieces', hpieces', hperm⟩ := exists_forall₂_beside hpieces hpiece
    have harranged : (second.arrange root (other.children place)).Perm
        (first.arrange root (disk.children location)) := by
      rw [← hchildren]
      exact (second.perm _ _).trans (first.perm _ _).symm
    obtain ⟨arranged, harranged, hshuffled⟩ := List.perm_comp_forall₂ harranged hpieces'
    refine ⟨arranged.flatten, scanWithin_succ_ok_iff.mpr ⟨place, arranged, hplace, rfl, harranged⟩, ?_⟩
    exact (List.Perm.flatten_congr hperm).trans hshuffled.symm.flatten

/-- **Other orders.** What a scan finds it finds in every listing order, if the same directories are
    listed. The paths may come in another order. -/
theorem scan_reorder {first : ListingOrder} (second : ListingOrder) {disk other : Disk}
    (wf : disk.WellFormed)
    (hlist : ∀ names, (∀ name ∈ names, IsName name) →
      other.list (root.joinAll names) = disk.list (root.joinAll names))
    (h : disk.scan first root filter = .ok paths) :
    ∃ paths', other.scan second root filter = .ok paths' ∧ paths.Perm paths' :=
  scanWithin_reorder second wf hlist h

end Disk

end PageLoom
