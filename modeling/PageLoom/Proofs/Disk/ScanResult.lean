import PageLoom.Proofs.Disk.PathLength
import PageLoom.Proofs.Disk.Scan
import PageLoom.Proofs.Page.Source

namespace PageLoom

/-!
# When a scan succeeds

A scan reads every directory below its root by its path, which grows on the way down. It succeeds if
the root can be listed and no directory below has a path that is too long. Then it finds what it
should find, and what it finds below one directory stands together.

* `Disk.PathsFit` — no directory below a place has a path that is too long;
* `Disk.scanWithin_cases` — whether a scan succeeds, and where it fails if it does not;
* `Disk.BlockOf` — the files below a directory, entry by entry in listing order;
* `Disk.scanWithin_block` — such a block is part of what a scan finds;
* `accepts_extensionOf?_iff` — the names that a filter chooses;
* `scan_finds_each_once` — all of this put together.
-/

/-! ### Computations on lists -/

/-- A computation on a list fails as it does on one of the elements. -/
theorem exists_error_of_mapM {ε α β γ : Type} {f : α → Except ε β} {g : List β → γ}
    {entries : List α} {e : ε} (h : (do return g (← entries.mapM f)) = Except.error e) :
    ∃ entry ∈ entries, f entry = .error e := by
  induction entries generalizing g with
  | nil => cases h
  | cons entry entries ih =>
    rw [List.mapM_cons] at h
    cases hentry : f entry with
    | error cause =>
      rw [hentry] at h
      cases h
      exact ⟨entry, List.mem_cons_self, hentry⟩
    | ok value =>
      rw [hentry] at h
      have hmore : (do return g (value :: (← entries.mapM f))) = Except.error e := by
        cases hmore : entries.mapM f with
        | error cause =>
          rw [hmore] at h
          exact h
        | ok values =>
          rw [hmore] at h
          cases h
      obtain ⟨other, hmem, hother⟩ := ih hmore
      exact ⟨other, List.mem_cons_of_mem _ hmem, hother⟩

/-- What belongs to an element of a list is one of the values, with others before and behind. -/
theorem exists_beside_of_mem {α β : Type} {entries : List α} {values : List β}
    {holds : α → β → Prop} (h : List.Forall₂ holds entries values) {entry : α}
    (hmem : entry ∈ entries) :
    ∃ before value after, values = before ++ value :: after ∧ holds entry value := by
  induction h with
  | nil => cases hmem
  | @cons first value entries values hfirst _ ih =>
    rcases List.mem_cons.mp hmem with rfl | hmem
    · exact ⟨[], value, values, rfl, hfirst⟩
    · obtain ⟨before, other, after, rfl, hother⟩ := ih hmem
      exact ⟨value :: before, other, after, rfl, hother⟩

/-! ### Chosen names -/

/-- **Chosen names.** A filter chooses a name if it chooses all, or if the name has one of its
    extensions. A name without a dot has none. -/
theorem accepts_extensionOf?_iff {filter : ExtensionFilter} {name : String} :
    filter.accepts (extensionOf? name) = true ↔
      filter = .any ∨ ∃ extensions, filter = .oneOf extensions ∧
        ∃ extension ∈ extensions, extensionOf? name = some extension := by
  cases filter with
  | any => simp [ExtensionFilter.accepts]
  | oneOf extensions =>
    cases hextension : extensionOf? name with
    | none => simp [ExtensionFilter.accepts]
    | some extension => simp [ExtensionFilter.accepts]

namespace Disk

variable {disk : Disk} {order : ListingOrder} {filter : ExtensionFilter} {root : Path}
  {place : Location} {paths : List Path} {name : String}

/-! ### Success and failure -/

/-- No directory at or below the place, where the root leads, has a path from the root that is too
    long. -/
def PathsFit (disk : Disk) (root : Path) (place : Location) : Prop :=
  ∀ names, disk.node? (names.reverse ++ place) = some .dir →
    (root.joinAll names).text.utf8ByteSize < pathLimit

/-- What a directory stands below is a directory. -/
theorem node?_of_reverse_append (wf : disk.WellFormed) {names : List String}
    (h : disk.node? (names.reverse ++ name :: place) = some .dir) :
    disk.node? (name :: place) = some .dir := by
  by_cases hnames : names = []
  · rwa [hnames] at h
  · exact wf.above (by simpa using hnames) h

/-- **One level.** A scan of a directory that can be listed succeeds if all directories in it can be
    scanned, and otherwise fails as one of them does. -/
theorem scanWithin_succ_cases (wf : disk.WellFormed) (order : ListingOrder)
    (filter : ExtensionFilter) (depth : Nat) (hroot : disk.status root = .ok (place, .dir)) :
    ((∃ paths, disk.scanWithin order filter (depth + 1) root = .ok paths) ∧
      ∀ name, disk.node? (name :: place) = some .dir →
        ∃ paths, disk.scanWithin order filter depth (root.join name) = .ok paths) ∨
    ∃ name e, disk.node? (name :: place) = some .dir ∧
      disk.scanWithin order filter depth (root.join name) = .error e ∧
      disk.scanWithin order filter (depth + 1) root = .error e := by
  have hmem : ∀ entry, entry ∈ order.arrange root (disk.children place) ↔
      disk.node? (entry.1 :: place) = some entry.2 := fun entry =>
    ((order.perm _ _).mem_iff).trans (mem_children_iff wf)
  cases hscan : disk.scanWithin order filter (depth + 1) root with
  | ok paths =>
    refine .inl ⟨⟨paths, rfl⟩, fun name hdir => ?_⟩
    obtain ⟨location, pieces, hstatus, -, hpieces⟩ := scanWithin_succ_ok_iff.mp hscan
    cases hstatus.symm.trans hroot
    obtain ⟨-, piece, -, -, ⟨-, hpiece⟩ | ⟨hother, -⟩⟩ :=
      exists_beside_of_mem hpieces ((hmem (name, .dir)).mpr hdir)
    · exact ⟨piece, hpiece⟩
    · exact absurd rfl hother
  | error e =>
    refine .inr ?_
    rw [scanWithin, list_ok_iff.mpr ⟨place, hroot, rfl⟩] at hscan
    obtain ⟨⟨name, node⟩, hentry, hfailed⟩ := exists_error_of_mapM hscan
    -- only directories are scanned in turn
    cases node with
    | file bytes => cases hfailed
    | link target => cases hfailed
    | dir => exact ⟨name, e, (hmem _).mp hentry, hfailed, rfl⟩

/-- **Success and failure.** A scan that may go deeper than any path that can be followed succeeds if
    no directory has a path that is too long, and otherwise fails at such a directory. -/
theorem scanWithin_cases (wf : disk.WellFormed) (hfits : disk.NamesFit) {depth : Nat}
    (hdepth : pathLimit < root.text.utf8ByteSize + depth)
    (hroot : disk.status root = .ok (place, .dir)) :
    (disk.PathsFit root place ∧ ∃ paths, disk.scanWithin order filter depth root = .ok paths) ∨
      ∃ names, disk.node? (names.reverse ++ place) = some .dir ∧
        pathLimit ≤ (root.joinAll names).text.utf8ByteSize ∧
        disk.scanWithin order filter depth root =
          .error ⟨root.joinAll names, .nameTooLong⟩ := by
  induction depth generalizing root place with
  | zero =>
    have hsize := (size_lt_of_status hroot).1
    omega
  | succ depth ih =>
    have hsize := (size_lt_of_status hroot).1
    -- Each directory in the root has a path that is too long, or is scanned in turn.
    have hbelow : ∀ name, disk.node? (name :: place) = some .dir →
        (disk.PathsFit (root.join name) (name :: place) ∧
          ∃ paths, disk.scanWithin order filter depth (root.join name) = .ok paths) ∨
        ∃ names, disk.node? (names.reverse ++ name :: place) = some .dir ∧
          pathLimit ≤ ((root.join name).joinAll names).text.utf8ByteSize ∧
          disk.scanWithin order filter depth (root.join name) =
            .error ⟨(root.join name).joinAll names, .nameTooLong⟩ := by
      intro name hdir
      have hname := wf.isName hdir
      have hlonger := size_lt_join root hname
      have hstatus := status_join_dir hfits hname hroot hdir
      split at hstatus
      · exact ih (by omega) hstatus
      · rename_i hlong
        refine .inr ⟨[], hdir, Nat.le_of_not_lt hlong, ?_⟩
        obtain ⟨less, rfl⟩ : ∃ less, depth = less + 1 := ⟨depth - 1, by omega⟩
        have hlist : disk.list (root.join name) = .error .nameTooLong := by
          rw [list, hstatus]
          rfl
        rw [scanWithin, hlist]
        rfl
    obtain ⟨hok, hscanned⟩ | ⟨name, e, hdir, hfailed, hscan⟩ :=
      scanWithin_succ_cases wf order filter depth hroot
    · refine .inl ⟨fun names hnode => ?_, hok⟩
      cases names with
      | nil => exact hsize
      | cons name names =>
        rw [List.reverse_cons, List.append_assoc] at hnode
        have hdir : disk.node? (name :: place) = some .dir := node?_of_reverse_append wf hnode
        obtain ⟨hfit, -⟩ | ⟨_, -, -, herror⟩ := hbelow name hdir
        · exact hfit names hnode
        · obtain ⟨paths, hpaths⟩ := hscanned name hdir
          cases hpaths.symm.trans herror
    · obtain ⟨-, paths, hpaths⟩ | ⟨names, hnode, hlong, herror⟩ := hbelow name hdir
      · cases hpaths.symm.trans hfailed
      · cases herror.symm.trans hfailed
        exact .inr ⟨name :: names, by rwa [List.reverse_cons, List.append_assoc], hlong, hscan⟩

/-! ### Blocks -/

/-- The block is what the filter chooses below a directory: for each entry in listing order what
    should be found in it, each path once. -/
def BlockOf (disk : Disk) (order : ListingOrder) (filter : ExtensionFilter) (root : Path)
    (place : Location) (block : List Path) : Prop :=
  ∃ pieces, block = pieces.flatten ∧
    List.Forall₂ (fun entry piece => piece.Nodup ∧
        ∀ path, path ∈ piece ↔ disk.FoundIn filter root place entry path)
      (order.arrange root (disk.children place)) pieces

/-- What a scan finds is a block. -/
theorem blockOf_of_scanWithin (wf : disk.WellFormed) {depth : Nat}
    (hroot : disk.PathLeads root place)
    (h : disk.scanWithin order filter depth root = .ok paths) :
    disk.BlockOf order filter root place paths := by
  cases depth with
  | zero => cases h
  | succ depth =>
    obtain ⟨location, pieces, hstatus, rfl, hpieces⟩ := scanWithin_succ_ok_iff.mp h
    cases (pathLeads_of_status hstatus).1.unique hroot
    have hmem : ∀ entry ∈ order.arrange root (disk.children place),
        disk.node? (entry.1 :: place) = some entry.2 :=
      fun entry hentry => (mem_children_iff wf).mp ((order.perm _ _).mem_iff.mp hentry)
    exact ⟨pieces, rfl, ((List.forall₂_and_left _ _).mpr ⟨hmem, hpieces⟩).imp
      fun entry piece ⟨hnode, h⟩ => h.found wf hroot hnode (scanWithin_ok wf)⟩

/-- **Blocks.** What a scan finds below a directory at any depth stands together, in listing order. -/
theorem scanWithin_block (wf : disk.WellFormed) {depth : Nat} {names : List String}
    (hroot : disk.PathLeads root place)
    (hdir : disk.node? (names.reverse ++ place) = some .dir)
    (h : disk.scanWithin order filter depth root = .ok paths) :
    ∃ before block after, paths = before ++ block ++ after ∧
      disk.BlockOf order filter (root.joinAll names) (names.reverse ++ place) block := by
  induction names generalizing depth root place paths with
  | nil => exact ⟨[], paths, [], by simp, blockOf_of_scanWithin wf hroot h⟩
  | cons name names ih =>
    cases depth with
    | zero => cases h
    | succ depth =>
      obtain ⟨location, pieces, hstatus, rfl, hpieces⟩ := scanWithin_succ_ok_iff.mp h
      cases (pathLeads_of_status hstatus).1.unique hroot
      rw [List.reverse_cons, List.append_assoc] at hdir ⊢
      have hfirst : disk.node? (name :: place) = some .dir := node?_of_reverse_append wf hdir
      have hentry : (name, Node.dir) ∈ order.arrange root (disk.children place) :=
        (order.perm _ _).mem_iff.mpr ((mem_children_iff wf).mpr hfirst)
      obtain ⟨earlier, piece, later, rfl, ⟨-, hscan⟩ | ⟨hother, -⟩⟩ :=
        exists_beside_of_mem hpieces hentry
      · have hno : ∀ target, disk.node? (name :: place) ≠ some (.link target) := by simp [hfirst]
        have hbelow := (pathLeads_join_iff (wf.isName hfirst) hroot hno).mpr rfl
        -- the directory's block is part of the piece of its first entry on the way
        obtain ⟨before, block, after, rfl, hblock⟩ := ih hbelow hdir hscan
        exact ⟨earlier.flatten ++ before, block, after ++ later.flatten, by simp, hblock⟩
      · exact absurd rfl hother

end Disk

/-! ### The whole scan -/

section

variable {disk : Disk} (order : ListingOrder) (filter : ExtensionFilter) (root : Path)

/-- **Scans.** A scan succeeds if and only if its root leads to a directory and no directory below
    has a path that is too long; otherwise it fails with the directory that could not be read. What
    it finds is each file and each link below the root whose name the filter chooses, once, with the
    root continued by the names as its path. For every directory below, what is found there stands
    together, in listing order. In another listing order the same is found, in some other order. -/
theorem scan_finds_each_once (wf : disk.WellFormed) (hfits : disk.NamesFit) :
    ((∃ paths, disk.scan order root filter = .ok paths) ↔
      ∃ place, disk.status root = .ok (place, .dir) ∧ disk.PathsFit root place) ∧
    (∀ e, disk.scan order root filter = .error e →
      (e.path = root ∧ disk.list root = .error e.cause) ∨
      ∃ place names, disk.status root = .ok (place, .dir) ∧
        disk.node? (names.reverse ++ place) = some .dir ∧
        pathLimit ≤ (root.joinAll names).text.utf8ByteSize ∧
        e = ⟨root.joinAll names, .nameTooLong⟩) ∧
    (∀ paths place, disk.scan order root filter = .ok paths → disk.PathLeads root place →
      paths.Nodup ∧
      (∀ path, path ∈ paths ↔
        ∃ names name node, path = root.joinAll (names ++ [name]) ∧
          disk.node? (name :: (names.reverse ++ place)) = some node ∧ node ≠ .dir ∧
          (filter = .any ∨ ∃ extensions, filter = .oneOf extensions ∧
            ∃ extension ∈ extensions, extensionOf? name = some extension)) ∧
      ∀ names, disk.node? (names.reverse ++ place) = some .dir →
        ∃ before block after, paths = before ++ block ++ after ∧
          disk.BlockOf order filter (root.joinAll names) (names.reverse ++ place) block) ∧
    (∀ name extension, extensionOf? name = some extension ↔
      ∃ stem rest, name.toList = stem ++ '.' :: (extension.toList ++ rest) ∧ '.' ∉ stem ∧
        '.' ∉ extension.toList ∧ (rest = [] ∨ rest.head? = some '.')) ∧
    ∀ other paths, disk.scan order root filter = .ok paths →
      ∃ paths', disk.scan other root filter = .ok paths' ∧ paths.Perm paths' := by
  -- Whether the root can be listed is asked first, as the scan does.
  have hcases : (∃ cause, disk.list root = .error cause ∧
        disk.scan order root filter = .error ⟨root, cause⟩) ∨
      ∃ place, disk.status root = .ok (place, .dir) := by
    cases hlist : disk.list root with
    | error cause =>
      refine .inl ⟨cause, rfl, ?_⟩
      show disk.scanWithin order filter (4095 + 1) root = _
      rw [Disk.scanWithin, hlist]
    | ok entries =>
      obtain ⟨place, hstatus, -⟩ := Disk.list_ok_iff.mp hlist
      exact .inr ⟨place, hstatus⟩
  -- The scan may go deeper than any path that can be followed.
  have hscan : ∀ place, disk.status root = .ok (place, .dir) →
      (disk.PathsFit root place ∧ ∃ paths, disk.scan order root filter = .ok paths) ∨
        ∃ names, disk.node? (names.reverse ++ place) = some .dir ∧
          pathLimit ≤ (root.joinAll names).text.utf8ByteSize ∧
          disk.scan order root filter = .error ⟨root.joinAll names, .nameTooLong⟩ := by
    intro place hroot
    have hpos := (Disk.size_lt_of_status hroot).2.2
    exact Disk.scanWithin_cases wf hfits (Nat.lt_add_of_pos_left hpos) hroot
  refine ⟨⟨?_, ?_⟩, ?_, ?_, fun _ _ => extensionOf?_eq_some_iff, fun other paths h =>
    Disk.scan_reorder other wf (fun _ _ => rfl) h⟩
  · rintro ⟨paths, hpaths⟩
    obtain ⟨cause, -, herror⟩ | ⟨place, hroot⟩ := hcases
    · cases hpaths.symm.trans herror
    · obtain ⟨hfit, -⟩ | ⟨names, -, -, herror⟩ := hscan place hroot
      · exact ⟨place, hroot, hfit⟩
      · cases hpaths.symm.trans herror
  · rintro ⟨place, hroot, hfit⟩
    obtain ⟨-, hok⟩ | ⟨names, hdir, hlong, -⟩ := hscan place hroot
    · exact hok
    · exact absurd (hfit names hdir) (Nat.not_lt.mpr hlong)
  · intro e he
    obtain ⟨cause, hlist, herror⟩ | ⟨place, hroot⟩ := hcases
    · cases herror.symm.trans he
      exact .inl ⟨rfl, hlist⟩
    · obtain ⟨-, paths, hok⟩ | ⟨names, hdir, hlong, herror⟩ := hscan place hroot
      · cases hok.symm.trans he
      · cases herror.symm.trans he
        exact .inr ⟨place, names, hroot, hdir, hlong, rfl⟩
  · intro paths place hpaths hroot
    obtain ⟨hnodup, hmem⟩ := Disk.scanWithin_ok wf hroot hpaths
    refine ⟨hnodup, fun path => ?_, fun names hdir => Disk.scanWithin_block wf hroot hdir hpaths⟩
    simp only [hmem, Disk.FoundBelow, accepts_extensionOf?_iff]

end

/-- A disk with files at several depths, and a link to a directory. -/
def branchedSite : Disk where
  home := []
  nodes :=
    [(["r"], .dir), (["sub", "r"], .dir), (["index.html", "sub", "r"], .file "x".toUTF8),
      (["deep", "sub", "r"], .dir), (["c.md.bak", "deep", "sub", "r"], .file "x".toUTF8),
      (["photo.png", "deep", "sub", "r"], .file "x".toUTF8), (["b.md", "r"], .file "x".toUTF8),
      (["plain", "r"], .file "x".toUTF8), (["again.html", "r"], .link ⟨"sub"⟩)]

theorem branchedSite_wellFormed : branchedSite.WellFormed := by
  refine ⟨?_, ?_, ?_⟩ <;> decide +kernel

theorem branchedSite_namesFit : branchedSite.NamesFit := by
  unfold Disk.NamesFit
  decide +kernel

/-- The scan of that disk for two extensions finds three files and the link, which it does not
    follow. Those of the directory stand together. With all listings reversed they are found in
    another order. -/
theorem scan_finds_each_once_branched :
    let filter : ExtensionFilter := .oneOf ["html", "md"]
    let reversed : ListingOrder :=
      ⟨fun _ entries => entries.reverse, fun _ entries => entries.reverse_perm⟩
    let found : List Path :=
      [⟨"r/sub/index.html"⟩, ⟨"r/sub/deep/c.md.bak"⟩, ⟨"r/b.md"⟩, ⟨"r/again.html"⟩]
    branchedSite.scan .stored ⟨"r"⟩ filter = .ok found ∧ found.Nodup ∧
      (∃ before block after, found = before ++ block ++ after ∧
        branchedSite.BlockOf .stored filter ⟨"r/sub"⟩ ["sub", "r"] block) ∧
      branchedSite.scan reversed ⟨"r"⟩ filter = .ok found.reverse ∧ found.Perm found.reverse := by
  intro filter reversed found
  have hscan : branchedSite.scan .stored ⟨"r"⟩ filter = .ok found := by decide +kernel
  have hreversed : branchedSite.scan reversed ⟨"r"⟩ filter = .ok found.reverse := by
    decide +kernel
  have hroot : branchedSite.status ⟨"r"⟩ = .ok (["r"], .dir) := by decide +kernel
  obtain ⟨-, -, hfound, -, horder⟩ := scan_finds_each_once .stored filter ⟨"r"⟩
    branchedSite_wellFormed branchedSite_namesFit
  obtain ⟨hnodup, -, hblocks⟩ := hfound found ["r"] hscan (Disk.pathLeads_of_status hroot).1
  obtain ⟨paths, hpaths, hperm⟩ := horder reversed found hscan
  cases hpaths.symm.trans hreversed
  exact ⟨hscan, hnodup, hblocks ["sub"] (by decide +kernel), hreversed, hperm⟩

/-- A disk with a directory that holds a file and another directory. -/
def nestedSite : Disk where
  home := []
  nodes := [(["r"], .dir), (["a.html", "r"], .file "x".toUTF8), (["sub", "r"], .dir)]

theorem nestedSite_wellFormed : nestedSite.WellFormed := by
  refine ⟨?_, ?_, ?_⟩ <;> decide +kernel

theorem nestedSite_namesFit : nestedSite.NamesFit := by
  unfold Disk.NamesFit
  decide +kernel

/-- Slashes take one byte each. -/
theorem utf8ByteSize_slashes (count : Nat) :
    (String.ofList (List.replicate count '/')).utf8ByteSize = count := by
  induction count with
  | zero => rfl
  | succ count ih =>
    rw [List.replicate_succ, String.ofList_cons, String.utf8ByteSize_append, ih, Nat.add_comm]
    rfl

/-- The path of the nested site's directory with slashes behind it. -/
def slashedRoot (count : Nat) : Path :=
  ⟨"r" ++ String.ofList (List.replicate count '/')⟩

theorem size_slashedRoot (count : Nat) : (slashedRoot count).text.utf8ByteSize = count + 1 := by
  rw [slashedRoot, String.utf8ByteSize_append, utf8ByteSize_slashes, Nat.add_comm]
  rfl

/-- The slashes do not keep the directory from being found, as long as the path is not too long. -/
theorem status_slashedRoot {count : Nat} (hcount : count + 1 < pathLimit) :
    nestedSite.status (slashedRoot count) = .ok (["r"], .dir) := by
  have hempty : ¬ (slashedRoot count).text.isEmpty := by
    simp [slashedRoot]
  have hnul : '\x00' ∉ (slashedRoot count).text.toList := by
    simp [slashedRoot]
  have hfault : (slashedRoot count).fault? = none := by
    rw [Path.fault?, if_neg hempty, if_neg hnul, size_slashedRoot, if_neg (Nat.not_le.mpr hcount)]
  have htrims : (slashedRoot count).Trims ⟨"r"⟩ := by
    have hshort : (slashedRoot count).withoutSlashes = ⟨"r"⟩ :=
      Path.withoutSlashes_append (by decide) (by decide) count
    rw [← hshort]
    exact Path.trims_withoutSlashes _
  have hroot : nestedSite.status ⟨"r"⟩ = .ok (["r"], .dir) := by decide +kernel
  exact Disk.status_ok_iff_travel.mpr
    ⟨hfault, (Disk.travel_of_trims htrims linkLimit).mp (Disk.status_ok_iff_travel.mp hroot).2⟩

/-- **Deep directories.** A root that can be listed is not enough: a directory in it may have a path
    that is too long, and then the scan finds nothing. -/
theorem scan_fails_below_listed_root :
    nestedSite.list (slashedRoot 4092) =
        .ok [("a.html", .file "x".toUTF8), ("sub", .dir)] ∧
      ∃ e, nestedSite.scan .stored (slashedRoot 4092) .any = .error e := by
  have hroot : nestedSite.status (slashedRoot 4092) = .ok (["r"], .dir) :=
    status_slashedRoot (by decide)
  refine ⟨Disk.list_ok_iff.mpr ⟨["r"], hroot, by decide +kernel⟩, ?_⟩
  have hdepth : pathLimit < (slashedRoot 4092).text.utf8ByteSize + pathLimit := by
    rw [size_slashedRoot]
    decide
  obtain ⟨hfit, -⟩ | ⟨names, -, -, hscan⟩ :=
    Disk.scanWithin_cases nestedSite_wellFormed nestedSite_namesFit hdepth hroot
  · -- the path of the directory in the root is three bytes longer
    have hname : IsName "sub" := by decide
    have hsub := hfit ["sub"] (by decide +kernel)
    rw [Path.joinAll_cons, Path.joinAll_nil, pathLimit] at hsub
    have hjoin := Disk.add_size_le_join (slashedRoot 4092) hname
    rw [size_slashedRoot, show "sub".utf8ByteSize = 3 from rfl] at hjoin
    omega
  · exact ⟨_, hscan⟩

end PageLoom
