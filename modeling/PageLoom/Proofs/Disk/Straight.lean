import PageLoom.Proofs.Disk.Entry
import PageLoom.Proofs.Disk.Fresh

namespace PageLoom

/-!
# Paths straight down from the home

Where no links stand below the disk's home, a relative path that never steps up leads down from
there by its names, and the paths above it lead to places on that way. If it has no other steps,
then it is found as soon as something stands at its place.

* `Path.GoesDown` — the paths that go down by names and may stay in between;
* `Path.GoesDown.eq_of_pathLeads`, `Path.GoesDown.eq_of_leadsAbove` — where they lead;
* `Path.Spells` — the paths that spell nothing but names;
* `Path.Spells.status` — what they find;
* `Path.isEntry_join` — entries of standing directories.
-/

namespace Path

variable {path parent upper : Path} {names : List String} {name : String}

/-! ### Paths that go down -/

/-- The path is relative and goes down by the names. In between it may stay. -/
structure GoesDown (path : Path) (names : List String) : Prop where
  relative : path.isAbsolute = false
  steps : path.steps.filter (· ≠ .stay) = names.map .down

instance (path : Path) (names : List String) : Decidable (path.GoesDown names) :=
  decidable_of_iff (path.isAbsolute = false ∧ path.steps.filter (· ≠ .stay) = names.map .down)
    ⟨fun h => ⟨h.1, h.2⟩, fun h => ⟨h.relative, h.steps⟩⟩

/-- The parent of a path that goes down does so by the first of its names. -/
theorem GoesDown.of_parent (h : path.GoesDown names) (hparent : path.parent? = some parent) :
    ∃ first, first <+: names ∧ parent.GoesDown first := by
  obtain ⟨habsolute, way, last, before, after, less, hsteps, hway⟩ := way_of_parent hparent
  have hstays : ∀ count, (List.replicate count Step.stay).filter (· ≠ .stay) = [] := by
    intro count
    rw [List.filter_replicate_of_neg (by decide)]
  have hdown := h.steps
  rw [hsteps] at hdown
  simp only [List.filter_append, hstays, List.append_nil] at hdown
  -- The names split where the last step begins.
  obtain ⟨first, more, hnames, hfirst, -⟩ := List.map_eq_append_iff.mp hdown.symm
  refine ⟨first, ⟨more, hnames.symm⟩, habsolute.trans h.relative, ?_⟩
  rw [hway, List.filter_append, hstays, List.append_nil, hfirst]

/-- So does any path above it. -/
theorem GoesDown.above (h : path.GoesDown names) (habove : upper.IsAbove path) :
    ∃ first, first <+: names ∧ upper.GoesDown first := by
  induction habove generalizing names with
  | self => exact ⟨names, List.prefix_rfl, h⟩
  | step hparent _ ih =>
    obtain ⟨middle, hmiddle, hgoes⟩ := h.of_parent hparent
    obtain ⟨first, hfirst, hgoes⟩ := ih hgoes
    exact ⟨first, hfirst.trans hmiddle, hgoes⟩

/-- A name that follows a path that goes down is the last one of the way. -/
theorem GoesDown.join (h : path.GoesDown names) (hname : IsName name) :
    (path.join name).GoesDown (names ++ [name]) := by
  obtain ⟨stays, hstays⟩ := path.exists_steps_eq_front
  have hdown := h.steps
  rw [hstays, List.filter_append, List.filter_replicate_of_neg (by decide), List.append_nil]
    at hdown
  refine ⟨(path.isAbsolute_join hname).trans h.relative, ?_⟩
  rw [path.steps_join hname, List.filter_append, hdown, List.map_append]
  rfl

end Path

namespace Disk

variable {disk : Disk} {location target : Location} {steps : List Step} {names : List String}

/-- Where no links stand below, steps that go down by names lead straight down. -/
theorem Leads.eq_of_goesDown (hno : disk.NoLinksBelow location)
    (h : disk.Leads location steps target)
    (hsteps : steps.filter (· ≠ .stay) = names.map .down) :
    target = names.reverse ++ location := by
  induction h generalizing names with
  | here location =>
    obtain rfl : names = [] := List.map_eq_nil_iff.mp hsteps.symm
    rfl
  | stay _ ih => exact ih hno hsteps
  | up _ _ =>
    rw [List.filter_cons_of_pos (by decide)] at hsteps
    cases names <;> cases hsteps
  | down _ _ ih =>
    rw [List.filter_cons_of_pos (by simp)] at hsteps
    cases names with
    | nil => cases hsteps
    | cons first names =>
      obtain ⟨hfirst, hmore⟩ := List.cons.inj hsteps
      cases hfirst
      rw [ih (hno.cons _) hmore, List.reverse_cons, List.append_assoc]
      rfl
  | link hlink _ _ => exact absurd hlink (hno _ _ _ List.suffix_rfl)

end Disk

namespace Path

variable {disk : Disk} {path : Path} {names : List String} {location : Location}

/-- **Straight down.** Where no links stand below the home, a path that goes down leads there by
    its names. -/
theorem GoesDown.eq_of_pathLeads (h : path.GoesDown names) (hno : disk.NoLinksBelow disk.home)
    (hleads : disk.PathLeads path location) : location = names.reverse ++ disk.home := by
  rw [Disk.PathLeads, origin, h.relative] at hleads
  exact Disk.Leads.eq_of_goesDown hno hleads h.steps

/-- The paths above it lead to places on the way. -/
theorem GoesDown.eq_of_leadsAbove (h : path.GoesDown names) (hno : disk.NoLinksBelow disk.home)
    (hleads : disk.LeadsAbove path location) :
    ∃ first, first <+: names ∧ location = first.reverse ++ disk.home := by
  obtain ⟨parent, hparent, upper, habove, hleads⟩ := hleads
  obtain ⟨first, hfirst, hgoes⟩ := h.above (.step hparent habove)
  exact ⟨first, hfirst, hgoes.eq_of_pathLeads hno hleads⟩

/-- What a path that goes down finds stands at its place. -/
theorem GoesDown.node?_of_isThere (h : path.GoesDown names) (hno : disk.NoLinksBelow disk.home)
    (hthere : disk.isThere path = true) :
    ∃ node, disk.node? (names.reverse ++ disk.home) = some node := by
  obtain ⟨location, node, hstatus⟩ := Disk.isThere_iff.mp hthere
  obtain ⟨hleads, hnode⟩ := Disk.pathLeads_of_status hstatus
  exact ⟨node, h.eq_of_pathLeads hno hleads ▸ hnode⟩

/-! ### Paths that spell names -/

/-- The path is relative, spells the names and nothing else, and can be followed as far as they are
    there. -/
structure Spells (path : Path) (names : List String) : Prop where
  fault : path.fault? = none
  relative : path.isAbsolute = false
  steps : path.steps = names.map .down
  sizes : ∀ name ∈ names, name.utf8ByteSize ≤ nameLimit

instance (path : Path) (names : List String) : Decidable (path.Spells names) :=
  decidable_of_iff
    (path.fault? = none ∧ path.isAbsolute = false ∧ path.steps = names.map .down ∧
      ∀ name ∈ names, name.utf8ByteSize ≤ nameLimit)
    ⟨fun h => ⟨h.1, h.2.1, h.2.2.1, h.2.2.2⟩, fun h => ⟨h.fault, h.relative, h.steps, h.sizes⟩⟩

/-- A name that can be followed spells itself. -/
theorem spells_name (hname : IsName name) (hfault : (⟨name⟩ : Path).fault? = none)
    (hsize : name.utf8ByteSize ≤ nameLimit) : (⟨name⟩ : Path).Spells [name] := by
  have hself : (⟨name⟩ : Path) = (⟨""⟩ : Path).join name := by
    rw [join_eq_lead _ (isTight_of_isName hname).1]
    exact congrArg mk (String.empty_append (s := name)).symm
  refine ⟨hfault, ?_, ?_, by simpa using hsize⟩
  · rw [hself, isAbsolute_join _ hname]
    rfl
  · rw [hself, steps_join _ hname]
    rfl

/-- If a path that ends in a name can be followed, then so can the name. -/
theorem fault?_of_join (hname : IsName name) (h : (path.join name).fault? = none) :
    (⟨name⟩ : Path).fault? = none := by
  rw [path.join_eq_lead (isTight_of_isName hname).1, fault?] at h
  split at h
  · cases h
  split at h
  · cases h
  rename_i hnul
  split at h
  · cases h
  rename_i hsize
  rw [fault?, if_neg, if_neg, if_neg]
  · rw [String.utf8ByteSize_append] at hsize
    show ¬ name.utf8ByteSize ≥ pathLimit
    omega
  · exact fun hmem => hnul (by rw [String.toList_append]; exact List.mem_append_right _ hmem)
  · intro hempty
    exact hname.1 (by simpa using hempty)

end Path

namespace Disk

variable {disk : Disk} {location : Location} {names : List String} {node : Node}

/-- Names are followed down to what stands at their place, if it is no link. -/
theorem advance_downs (wf : disk.WellFormed)
    (hsizes : ∀ name ∈ names, name.utf8ByteSize ≤ nameLimit)
    (hnode : disk.node? (names.reverse ++ location) = some node)
    (hother : ∀ target, node ≠ .link target) (follow : Bool) :
    disk.advance follow location (names.map .down) =
      .ok (.arrived (.taken (names.reverse ++ location) node)) := by
  induction names generalizing location with
  | nil =>
    have hhere : disk.node? location = some node := hnode
    rw [List.map_nil, advance_nil, hhere]
    rfl
  | cons name names ih =>
    obtain ⟨hsize, hmore⟩ := List.forall_mem_cons.mp hsizes
    rw [List.reverse_cons, List.append_assoc, List.singleton_append] at hnode ⊢
    have hdir : disk.node? location = some .dir := by
      have hlong : disk.node? ((names.reverse ++ [name]) ++ location) = some node := by
        rwa [List.append_assoc, List.singleton_append]
      exact wf.above (by simp) hlong
    -- On the way there are directories only.
    obtain ⟨first, hfirst, hnext⟩ : ∃ first, disk.node? (name :: location) = some first ∧
        ∀ target, first ≠ .link target := by
      by_cases hlast : names = []
      · subst hlast
        exact ⟨node, hnode, hother⟩
      · exact ⟨.dir, wf.above (by simpa using hlast) hnode, by simp⟩
    rw [List.map_cons, advance_down_of_node hdir hsize hfirst hnext]
    exact ih hmore hnode

end Disk

namespace Path

variable {disk : Disk} {path : Path} {names : List String} {name : String} {node : Node}

/-- **Found.** A path that spells names finds what stands at their place, if it is no link. -/
theorem Spells.status (h : path.Spells names) (wf : disk.WellFormed)
    (hnode : disk.node? (names.reverse ++ disk.home) = some node)
    (hother : ∀ target, node ≠ .link target) :
    disk.status path = .ok (names.reverse ++ disk.home, node) := by
  rw [Disk.status_ok_iff_travel, origin, h.relative, h.steps]
  exact ⟨h.fault, Disk.travel_of_arrived (Disk.advance_downs wf h.sizes hnode hother true)⟩

/-- So it does where a link at the end would not be followed. -/
theorem Spells.linkStatus (h : path.Spells names) (wf : disk.WellFormed)
    (hnode : disk.node? (names.reverse ++ disk.home) = some node)
    (hother : ∀ target, node ≠ .link target) :
    disk.linkStatus path = .ok (names.reverse ++ disk.home, node) := by
  have hplace : disk.locate false path = .ok (.taken (names.reverse ++ disk.home) node) := by
    rw [Disk.locate_ok_iff, origin, h.relative, h.steps]
    exact ⟨h.fault, Disk.travel_of_arrived (Disk.advance_downs wf h.sizes hnode hother false)⟩
  rw [Disk.linkStatus, hplace]
  rfl

/-- The bytes of a file are read by its names. -/
theorem Spells.readBytes {bytes : ByteArray} (h : path.Spells names) (wf : disk.WellFormed)
    (hnode : disk.node? (names.reverse ++ disk.home) = some (.file bytes)) :
    disk.readBytes path = .ok bytes := by
  rw [Disk.readBytes, h.status wf hnode (by simp)]
  rfl

/-- A directory stands by its names. -/
theorem Spells.standsAt (h : path.Spells names) (wf : disk.WellFormed)
    (hnode : disk.node? (names.reverse ++ disk.home) = some .dir) :
    disk.StandsAt path (names.reverse ++ disk.home) :=
  .inr (h.status wf hnode (by simp))

/-! ### Entries of standing directories -/

/-- A path that goes on by a name from a standing directory names an entry of the directory. -/
theorem isEntry_join {up : Location} (hname : IsName name) (hstands : disk.StandsAt path up)
    (hdir : disk.node? up = some .dir)
    (hno : ∀ target, disk.node? (name :: up) ≠ some (.link target)) :
    disk.IsEntry (path.join name) up name :=
  ⟨hname, hdir, hno, path, withoutSlashes_of_not_endsInSlash (path.toList_join_ne_nil hname)
    (path.endsInSlash_join hname), hstands⟩

/-- So does one that ends in a slash. -/
theorem isEntry_join_slash {up : Location} (hname : IsName name) (hstands : disk.StandsAt path up)
    (hdir : disk.node? up = some .dir)
    (hno : ∀ target, disk.node? (name :: up) ≠ some (.link target)) :
    disk.IsEntry ((path.join name).join "") up name :=
  ⟨hname, hdir, hno, path, path.withoutSlashes_join_empty hname, hstands⟩

/-- The path of the home stands. -/
theorem standsAt_dot (hdir : disk.node? disk.home = some .dir) :
    disk.StandsAt ⟨"."⟩ disk.home := by
  refine .inr (Disk.status_ok_iff_travel.mpr ⟨by decide, Disk.travel_of_arrived ?_⟩)
  exact Disk.advance_stays hdir 1

/-- The name of an entry of the home that is there spells it. -/
theorem spells_of_isThere (hdir : disk.node? disk.home = some .dir)
    (hno : ∀ target, disk.node? (name :: disk.home) ≠ some (.link target)) (hname : IsName name)
    (hthere : disk.isThere ((⟨"."⟩ : Path).join name) = true) : (⟨name⟩ : Path).Spells [name] := by
  have hentry := isEntry_join hname (standsAt_dot hdir) hdir hno
  obtain ⟨location, node, hstatus⟩ := Disk.isThere_iff.mp hthere
  obtain ⟨hfault, hfound⟩ :=
    (hentry.locate (endsInSlash_join _ hname)).mp (Disk.status_ok_iff.mp hstatus)
  obtain hplace | ⟨_, hplace⟩ := Disk.entry_location hfound
  · cases hplace
  · cases hplace
    exact spells_name hname (fault?_of_join hname hfault) (Disk.entry_taken_iff.mp hfound).1

end Path

end PageLoom
