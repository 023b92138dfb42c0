import PageLoom.Proofs.Site.Copy

namespace PageLoom

/-!
# Sources apart from the output

Where nothing that is read stands at or below the output directory, what a build writes does not
change what it reads: the same paths hold the same texts, and a scan finds the same files.

* `Apart`, `apart_of_noLinks` — a source and an output that do not touch;
* `Disk.Changes.holdsText_iff`, `Disk.Changes.isThere_iff` — what paths of the source hold;
* `Scanned`, `scanned_of_ready`, `scan_of_filesBelow` — what scans of the source find.
-/

/-- A source and an output are apart: no link stands below the output directory, and nothing below
    the source, links followed, leads to the output directory or below it. -/
structure Apart (disk : Disk) (source output : Path) : Prop where
  noLinks : ∀ place, disk.PathLeads output place → disk.NoLinksBelow place
  staysOut : ∀ place, disk.PathLeads output place → StaysOut disk source place

variable {disk before ready after : Disk} {source output path root : Path} {place : Location}
  {dirs : Location → Prop} {names : List String} {order : ListingOrder} {filter : ExtensionFilter}
  {paths : List Path}

/-- In a tree without links a source and an output are apart if neither lies in the other one. -/
theorem apart_of_noLinks {start target : Location} (hno : ∀ location, disk.NoLinksBelow location)
    (hsource : disk.PathLeads source start) (houtput : disk.PathLeads output target)
    (hbelow : ¬ target <:+ start) (habove : ¬ start <:+ target) : Apart disk source output := by
  refine ⟨fun place _ => hno place, fun place hplace names origin hnames hleads hin => ?_⟩
  cases houtput.unique hplace
  obtain ⟨location, hlocation, hdown⟩ := (Disk.pathLeads_joinAll hnames).mp hleads
  cases hsource.unique hlocation
  -- Without links names lead straight down from the source.
  rw [hdown.eq_of_noLinks (hno start)] at hin
  rcases List.suffix_or_suffix_of_suffix hin (List.suffix_append names.reverse start) with h | h
  · exact hbelow h
  · exact habove h

namespace Disk

/-- Files written below a place do not change which texts the files hold that stay out of it. -/
theorem Changes.holdsText_iff (h : before.Changes dirs (place <:+ ·) after)
    (hout : StaysOut before path place) (hnames : ∀ name ∈ names, IsName name) {text : String} :
    after.HoldsText (path.joinAll names) text ↔ before.HoldsText (path.joinAll names) text :=
  exists_congr fun _ => and_congr_left' (h.holdsBytes_iff hout hnames)

/-- Files written below a place do not change whether a path that stays out of it leads to
    something. -/
theorem Changes.isThere_iff (h : before.Changes (fun _ => False) (place <:+ ·) after)
    (hout : StaysOut before path place) : after.isThere path = true ↔ before.isThere path = true := by
  refine ⟨fun hthere => ?_, h.grows.isThere⟩
  obtain ⟨location, node, hstatus⟩ := Disk.isThere_iff.mp hthere
  obtain ⟨hleads, hnode⟩ := pathLeads_of_status hstatus
  have hleads' := (h.grows.pathLeads_iff path).mp hleads
  have hsame := h.node_eq id (hout [] location (by simp) hleads')
  rw [hsame] at hnode
  refine Disk.isThere_iff.mpr ⟨location, node, h.keeps_back.status hstatus hnode ?_⟩
  rintro target rfl
  exact hsame.trans hnode

/-- Where only directories were made the same files are found. -/
theorem Changes.foundBelow_iff (h : before.Changes dirs (fun _ => False) after) :
    after.FoundBelow filter root place path ↔ before.FoundBelow filter root place path := by
  refine exists_congr fun names => exists_congr fun name => exists_congr fun node =>
    and_congr_right fun _ => ?_
  constructor
  · rintro ⟨hnode, hother, haccepts⟩
    exact ⟨(h.node_iff id hother).mp hnode, hother, haccepts⟩
  · rintro ⟨hnode, hother, haccepts⟩
    exact ⟨(h.node_iff id hother).mpr hnode, hother, haccepts⟩

end Disk

/-! ### Scans -/

/-- The paths are those of all files below a root that the filter chooses, each one once, in the
    order of a scan once the output directory was made. -/
structure Scanned (order : ListingOrder) (filter : ExtensionFilter) (before ready : Disk)
    (root : Path) (paths : List Path) : Prop where
  scan : ready.scan order root filter = .ok paths
  nodup : paths.Nodup
  mem_iff : ∀ path, path ∈ paths ↔
    ∃ place, before.PathLeads root place ∧ before.FoundBelow filter root place path

/-- The root of a scan that succeeds is a directory. -/
theorem exists_root_of_scan (h : disk.scan order root filter = .ok paths) :
    ∃ location, disk.status root = .ok (location, .dir) := by
  have hlevel : disk.scanWithin order filter (pathLimit - 1 + 1) root = .ok paths := h
  obtain ⟨location, -, hstatus, -⟩ := Disk.scanWithin_succ_ok_iff.mp hlevel
  exact ⟨location, hstatus⟩

/-- What a scan finds after directories were made was there before. -/
theorem scanned_of_ready (wf : before.WellFormed) (h : before.Changes dirs (fun _ => False) ready)
    (hscan : ready.scan order root filter = .ok paths) :
    Scanned order filter before ready root paths := by
  obtain ⟨start, hstatus⟩ := exists_root_of_scan hscan
  have hready := (Disk.pathLeads_of_status hstatus).1
  have hroot := (h.grows.pathLeads_iff root).mp hready
  obtain ⟨hnodup, hmem⟩ := Disk.scanWithin_ok (h.wellFormed wf) hready hscan
  refine ⟨hscan, hnodup, fun path => ?_⟩
  rw [hmem, h.foundBelow_iff]
  constructor
  · exact fun hfound => ⟨start, hroot, hfound⟩
  · rintro ⟨other, hother, hfound⟩
    rwa [hroot.unique hother]

/-- What was found has a path that goes on from the root with names. -/
theorem Scanned.exists_joinAll (wf : before.WellFormed)
    (h : Scanned order filter before ready root paths) (hpath : path ∈ paths) :
    ∃ names, (∀ name ∈ names, IsName name) ∧ path = root.joinAll names := by
  obtain ⟨start, -, names, name, node, rfl, hnode, -, -⟩ := (h.mem_iff path).mp hpath
  refine ⟨names ++ [name], fun other hother => ?_, rfl⟩
  have hplace : before.node? ((name :: names.reverse) ++ start) = some node := hnode
  exact Disk.isName_of_node? wf hplace other (by simpa [or_comm] using hother)

/-- The text of a file that was found is the one that it held before files were written below a
    place that the root of the scan does not lead to. -/
theorem Scanned.holdsText (wf : before.WellFormed)
    (h : Scanned order filter before ready root paths) (hout : StaysOut before root place)
    (hchanges : before.Changes dirs (place <:+ ·) after) {text : String} (hpath : path ∈ paths)
    (hread : after.readText path = .ok text) : before.HoldsText path text := by
  obtain ⟨names, hnames, rfl⟩ := h.exists_joinAll wf hpath
  exact (hchanges.holdsText_iff hout hnames).mp (Disk.holdsText_of_readText hread)

/-- A scan finds the same, in the same order, after files were written right into a directory that
    its root does not lead to. -/
theorem scan_of_filesBelow {files : Location → Prop} (wf : before.WellFormed)
    (h : before.Changes (fun _ => False) files after)
    (hfiles : ∀ location, files location → ∃ name, location = name :: place)
    (hdir : after.node? place = some .dir) (hout : StaysOut before root place)
    (hscan : after.scan order root filter = .ok paths) :
    before.scan order root filter = .ok paths := by
  have wf' := h.wellFormed wf
  obtain ⟨start, hstatus⟩ := exists_root_of_scan hscan
  have hroot := (Disk.pathLeads_of_status hstatus).1
  refine Disk.scanWithin_congr wf' h.keeps_back hroot (fun location hbelow => ?_) hscan
  refine h.children location fun name => ⟨id, fun hfile => ?_⟩
  obtain ⟨other, hplace⟩ := hfiles _ hfile
  cases hplace
  -- The files would be in a directory below the root.
  obtain ⟨up, rfl⟩ := hbelow
  have hnames : ∀ name ∈ up.reverse, IsName name := fun name hname =>
    Disk.isName_of_node? wf' hdir name (List.mem_reverse.mp hname)
  have hdown : after.Leads start (up.reverse.map .down) (up ++ start) := by
    have hplace : after.node? (up.reverse.reverse ++ start) = some .dir := by
      rwa [List.reverse_reverse]
    simpa using Disk.leads_of_node? wf' hplace (by simp)
  have hleads := (Disk.pathLeads_joinAll hnames).mpr ⟨start, hroot, hdown⟩
  exact hout up.reverse _ hnames ((h.grows.pathLeads_iff _).mp hleads) List.suffix_rfl

end PageLoom
