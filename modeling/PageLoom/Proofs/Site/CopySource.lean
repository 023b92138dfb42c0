import PageLoom.Proofs.Site.Separate
import PageLoom.Proofs.Site.Walk

namespace PageLoom

/-!
# Sources that a copy does not touch

A copy makes its own directory and fills it while it walks through its source. If the source leads
to nothing there, and its ways pass nothing that the copy makes, then the walk finds the source as
it was before the copy.

* `ApartFromCopy` — a source and the place of a copy that have nothing to do with each other;
* `CopyInto` — the disks on which a copy is being made;
* `CopyInto.node_eq`, `CopyInto.followEntry_eq`, … — they hold the same source;
* `CopyingIn` — a directory that the walk reached is being copied;
* `CopyingIn.round`, `CopyingIn.entry` — the copy goes on to its next entry, and down into one.
-/

/-- The source of a copy has nothing to do with the place of the copy. There are no links below the
    place, the source leads nowhere there, and all that it passes there, or on the way there, is
    there before the copy. -/
structure ApartFromCopy (disk : Disk) (source target : Path) (base : Location) : Prop where
  noLinks : disk.NoLinksBelow base
  staysOut : StaysOut disk source base
  there : ∀ names passed, (∀ name ∈ names, IsName name) →
    disk.PathPasses (source.joinAll names) passed →
    base <:+ passed ∨ disk.Upwards target passed → disk.node? passed ≠ none

/-! ### Links that lead down -/

namespace Disk

variable {disk : Disk} {place location passed : Location} {steps : List Step} {path : Path}
  {names : List String}

/-- Every link below the place leads further down, so that no way from there leaves it. -/
def LinksDown (disk : Disk) (place : Location) : Prop :=
  ∀ name up path, place <:+ up → disk.node? (name :: up) = some (.link path) →
    path.isAbsolute = false ∧ .up ∉ path.steps

/-- A way down passes only what is below its start. -/
theorem LinksDown.suffix_of_passes (hlinks : disk.LinksDown place) (hdown : .up ∉ steps)
    (hstart : place <:+ location) (h : disk.Passes location steps passed) : place <:+ passed := by
  induction h with
  | here => exact hstart
  | stay _ ih => exact ih (fun hup => hdown (List.mem_cons_of_mem _ hup)) hstart
  | up => exact absurd List.mem_cons_self hdown
  | down _ _ ih =>
    exact ih (fun hup => hdown (List.mem_cons_of_mem _ hup)) (hstart.trans (List.suffix_cons _ _))
  | @link location passed name rest path hlink _ ih =>
    obtain ⟨hrelative, hpath⟩ := hlinks name location path hstart hlink
    refine ih (fun hup => ?_) (by rwa [Path.origin, if_neg (by simp [hrelative])])
    rcases List.mem_append.mp hup with hup | hup
    · exact hpath hup
    · exact hdown (List.mem_cons_of_mem _ hup)

/-- The paths below a path pass what the path passes, and what is below the place where it leads. -/
theorem LinksDown.pathPasses_joinAll (hlinks : disk.LinksDown place)
    (hpath : disk.PathLeads path place) (hnames : ∀ name ∈ names, IsName name)
    (h : disk.PathPasses (path.joinAll names) passed) :
    disk.PathPasses path passed ∨ place <:+ passed := by
  induction names using List.reverseRecOn generalizing passed with
  | nil => exact .inl h
  | append_singleton names name ih =>
    obtain ⟨hfirst, hname⟩ := List.forall_mem_append.mp hnames
    rw [Path.joinAll_concat] at h
    rcases pathPasses_join (hname name (List.mem_singleton_self name)) h with h | ⟨location, hleads, h⟩
    · exact ih hfirst h
    · obtain ⟨origin, horigin, hdown⟩ := (pathLeads_joinAll hfirst).mp hleads
      cases hpath.unique horigin
      have hbelow := hlinks.suffix_of_passes (by simp) List.suffix_rfl (.of_leads hdown)
      exact .inr (hlinks.suffix_of_passes (by simp) hbelow h)

end Disk

/-- If all links below the source lead further down, then the source and the place of a copy have
    nothing to do with each other when neither lies in the other one, and the ways to both pass
    only what is there. -/
theorem apartFromCopy_of_linksDown {disk : Disk} {source target : Path} {origin base : Location}
    (hno : disk.NoLinksBelow base) (hlinks : disk.LinksDown origin)
    (hsource : disk.PathLeads source origin) (hbelow : ¬ base <:+ origin) (habove : ¬ origin <:+ base)
    (hway : ∀ passed, disk.PathPasses source passed →
      base <:+ passed ∨ disk.Upwards target passed → disk.node? passed ≠ none)
    (hup : ∀ passed, disk.Upwards target passed → origin <:+ passed → disk.node? passed ≠ none) :
    ApartFromCopy disk source target base := by
  have hapart : ∀ {passed}, origin <:+ passed → ¬ base <:+ passed := fun h h' =>
    (List.suffix_or_suffix_of_suffix h h').elim habove hbelow
  refine ⟨hno, fun names place hnames hleads => ?_, fun names passed hnames hpasses hplace => ?_⟩
  · obtain ⟨start, hstart, hdown⟩ := (Disk.pathLeads_joinAll hnames).mp hleads
    cases hsource.unique hstart
    exact hapart (hlinks.suffix_of_passes (by simp) List.suffix_rfl (.of_leads hdown))
  · rcases hlinks.pathPasses_joinAll hsource hnames hpasses with hpasses | hpasses
    · exact hway passed hpasses hplace
    · exact hup passed (hplace.resolve_left (hapart hpasses)) hpasses

/-! ### The disks of a copy -/

/-- While a tree is being copied, directories are made at the place of the copy, below it, and on the
    way to it. Files are written at the place and below it. -/
def CopyInto (start : Disk) (target : Path) (base : Location) (disk : Disk) : Prop :=
  start.Changes (fun location => base <:+ location ∨ start.Upwards target location) (base <:+ ·) disk

variable {start disk later : Disk} {order : ListingOrder} {source target path : Path}
  {base location place : Location} {names : List String} {name : String} {above : List Ancestor}
  {node : Node}

/-- The slash at the end of the target of a copy does not change the way to it. -/
theorem Disk.Upwards.of_join_empty (h : disk.Upwards (target.join "") location) :
    disk.Upwards target location := by
  obtain ⟨upper, habove, hleads⟩ := h
  cases habove with
  | self => exact ⟨target, .self, (Disk.pathLeads_of_trims target.trims_join_empty).mpr hleads⟩
  | step hparent habove =>
    exact ⟨upper, .step (target.parent?_join_empty ▸ hparent) habove, hleads⟩

namespace CopyInto

theorem grows (h : CopyInto start target base disk) : start.Grows disk :=
  Disk.Changes.grows h

theorem wellFormed (h : CopyInto start target base disk) (wf : start.WellFormed) : disk.WellFormed :=
  Disk.Changes.wellFormed h wf

/-- The directory of the copy was made. -/
theorem made (start : Disk) (target : Path) (base : Location) :
    CopyInto start target base (start.makeDirs (target.join "")).2 :=
  (start.makeDirsUpTo_changes _ _).mono (fun _ hplace => .inr hplace.of_join_empty)
    fun _ => False.elim

/-- More was copied to the place, or below it. -/
theorem step (h : CopyInto start target base disk)
    (hstep : disk.Changes (base <:+ ·) (base <:+ ·) later) : CopyInto start target base later :=
  Disk.Changes.trans h (hstep.mono (fun _ => .inl) fun _ => id)

section Source

variable (h : CopyInto start target base disk) (hapart : ApartFromCopy start source target base)
  (hnames : ∀ name ∈ names, IsName name)

include h hapart hnames

/-- What the source leads to is what it was. -/
theorem node_eq (hleads : start.PathLeads (source.joinAll names) location) :
    disk.node? location = start.node? location := by
  rcases h.node location with hsame | ⟨hplace, hnone, -⟩ | ⟨hplace, -⟩
  · exact hsame
  · exact absurd hnone (hapart.there names location hnames (.of_leads hleads) hplace)
  · exact absurd hplace (hapart.staysOut names location hnames hleads)

/-- The directories of the source have the entries that they had. -/
theorem entry_eq (hleads : start.PathLeads (source.joinAll names) location) (hname : IsName name) :
    disk.node? (name :: location) = start.node? (name :: location) := by
  by_cases hlink : ∃ path, start.node? (name :: location) = some (.link path)
  · obtain ⟨path, hlink⟩ := hlink
    rw [hlink, (h.grows.link_iff _ _).mpr hlink]
  · have hentry : start.PathLeads (source.joinAll (names ++ [name])) (name :: location) := by
      rw [Path.joinAll_concat]
      exact (Disk.pathLeads_join_iff hname hleads (not_exists.mp hlink)).mpr rfl
    exact h.node_eq hapart (List.forall_mem_append.mpr ⟨hnames, by simpa using hname⟩) hentry

/-- The paths of the source are followed as before. -/
theorem locate_eq (follow : Bool) :
    disk.locate follow (source.joinAll names) = start.locate follow (source.joinAll names) := by
  refine h.grows.locate_eq follow (fun passed hpasses hnone => ?_)
    fun target hleads => h.node_eq hapart hnames hleads
  have hthere := hapart.there names passed hnames hpasses
  rcases h.node passed with hsame | ⟨hplace, -⟩ | ⟨hplace, -⟩
  · rwa [hsame]
  · exact absurd hnone (hthere hplace)
  · exact absurd hnone (hthere (.inl hplace))

/-- The walk through the source finds what it found before. -/
theorem followEntry_eq (above : List Ancestor) :
    followEntry above (source.joinAll names) disk =
      followEntry above (source.joinAll names) start :=
  followEntry_congr fun follow => h.locate_eq hapart hnames follow

end Source

end CopyInto

/-! ### Directories that are being copied -/

/-- A directory that the walk reached is being copied: the directory of its copy stands. -/
structure CopyingIn (start : Disk) (source target : Path) (base : Location) (names : List String)
    (above : List Ancestor) (location : Location) (disk : Disk) : Prop where
  into : CopyInto start target base disk
  reached : Reached start source names above location .dir
  stands : disk.StandsAt (target.join (relativeText names)) (names.reverse ++ base)

/-- The copy of a directory starts when the directory for it was made. -/
theorem copyingIn_root (hfollow : followEntry [] source start = .ok (location, .dir))
    (hmade : (start.makeDirs (target.join "")).1 = .ok ()) :
    ∃ base, start.PathLeads target base ∧
      CopyingIn start source target base [] [] location (start.makeDirs (target.join "")).2 := by
  obtain ⟨base, hstands⟩ := Disk.makeDirsUpTo_ok hmade
  have hinto := CopyInto.made start target base
  refine ⟨base, ?_, hinto, .root hfollow, hstands⟩
  exact (Disk.pathLeads_of_trims target.trims_join_empty).mpr
    ((hinto.grows.pathLeads_iff _).mp hstands.pathLeads)

namespace CopyingIn

variable (wf : start.WellFormed) (hapart : ApartFromCopy start source target base)

include wf hapart

/-- Its entries can be copied. -/
theorem ready (h : CopyingIn start source target base names above location disk)
    (hname : IsName name) : CopyReady disk target base (names ++ [name]) :=
  .entry (h.into.wellFormed wf) (hapart.noLinks.grows h.into.grows) (h.reached.isName wf) h.stands
    hname

/-- The entries that are listed are those that the directory had before the copy. -/
theorem mem_arrange_iff (h : CopyingIn start source target base names above location disk)
    {entries : List (String × Node)} (hlist : disk.list (source.joinAll names) = .ok entries) :
    (name, node) ∈ order.arrange (source.joinAll names) entries ↔
      start.node? (name :: location) = some node := by
  have hnames := h.reached.isName wf
  have hleads := h.reached.pathLeads.1
  obtain ⟨place, hstatus, rfl⟩ := Disk.list_ok_iff.mp hlist
  cases ((h.into.grows.pathLeads_iff _).mp (Disk.pathLeads_of_status hstatus).1).unique hleads
  rw [(order.perm _ _).mem_iff, Disk.mem_children_iff (h.into.wellFormed wf)]
  constructor
  · intro hnode
    rwa [← h.into.entry_eq hapart hnames hleads ((h.into.wellFormed wf).isName hnode)]
  · intro hnode
    rwa [h.into.entry_eq hapart hnames hleads (wf.isName hnode)]

/-- The copy of an entry changes only what is below the place of its copy. -/
theorem changes (order : ListingOrder) {session : Session}
    (h : CopyingIn start source target base names above location session.disk)
    (hname : IsName name) (depth : Nat) (others : List Ancestor) (path : Path) :
    session.disk.Changes (base <:+ ·) (base <:+ ·)
      (finalDisk ((copyWithin order target depth others path
        (relativeText (names ++ [name]))).run session)) :=
  (copyWithin_changes depth (h.ready wf hapart hname)).mono
    (fun _ => (List.suffix_append _ _).trans) fun _ => (List.suffix_append _ _).trans

/-- **Rounds.** After the copy of an entry the directory is still being copied. -/
theorem round (hname : IsName name) (depth : Nat) (others : List Ancestor) (path : Path) :
    Action.Preserves (CopyingIn start source target base names above location)
      (copyWithin order target depth others path (relativeText (names ++ [name]))) := by
  intro session h
  have hchanges := h.changes wf hapart order hname depth others path
  exact ⟨h.into.step hchanges, h.reached, h.stands.grows hchanges.grows⟩

/-- **Further down.** The copy of an entry that is followed to a directory starts when the directory
    for it was made. -/
theorem entry (h : CopyingIn start source target base names above location disk)
    (hentry : start.node? (name :: location) = some node)
    (hfollow : followEntry (⟨location, source.joinAll names⟩ :: above)
      (source.joinAll (names ++ [name])) disk = .ok (place, .dir))
    (hmade : (disk.makeDirs (target.join (relativeText (names ++ [name])))).1 = .ok ()) :
    CopyingIn start source target base (names ++ [name]) (⟨location, source.joinAll names⟩ :: above)
      place (disk.makeDirs (target.join (relativeText (names ++ [name])))).2 := by
  have hname := wf.isName hentry
  have hnames : ∀ other ∈ names ++ [name], IsName other :=
    List.forall_mem_append.mpr ⟨h.reached.isName wf, by simpa using hname⟩
  obtain ⟨hchanges, hstands⟩ := makeDirs_target (h.ready wf hapart hname)
  refine ⟨h.into.step (hchanges.mono ?_ fun _ => False.elim), ?_, hstands hmade⟩
  · rintro _ rfl
    exact List.suffix_append _ _
  · rw [h.into.followEntry_eq hapart hnames] at hfollow
    exact .entry h.reached hentry hfollow

end CopyingIn

end PageLoom
