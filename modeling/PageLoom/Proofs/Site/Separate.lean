import PageLoom.Proofs.Disk.Entry
import PageLoom.Proofs.Site.Apart

namespace PageLoom

/-!
# Sources that a build does not touch

A source is separate from the output if its paths, links followed, neither lead into the output
directory nor pass through what is inside it. Then nothing that happens inside the output directory
changes what is read from the source.

* `PassesBy`, `Separate` — a source and an output that have nothing to do with each other;
* `separate_of_noLinks` — such are all that are apart, where there are no links;
* `Building` — the disks of a build once its output directory was made;
* `Building.list_eq`, `Building.readText_eq`, … — two such disks hold the same source.
-/

/-- No path below `path`, links followed, leads to the place or below it, or passes through what is
    inside it. -/
structure PassesBy (disk : Disk) (path : Path) (place : Location) : Prop where
  staysOut : StaysOut disk path place
  outside : ∀ names passed, (∀ name ∈ names, IsName name) →
    disk.PathPasses (path.joinAll names) passed → ¬ Disk.Within place passed

/-- A source and an output are separate: no link stands below the output directory, and the source
    passes it by. -/
structure Separate (disk : Disk) (source output : Path) : Prop where
  noLinks : ∀ place, disk.PathLeads output place → disk.NoLinksBelow place
  passesBy : ∀ place, disk.PathLeads output place → PassesBy disk source place

variable {disk before after : Disk} {source output path : Path} {place start target : Location}
  {names : List String}

/-- What is below a path passes by, too. -/
theorem PassesBy.join {name : String} (h : PassesBy disk path place) (hname : IsName name) :
    PassesBy disk (path.join name) place :=
  ⟨h.staysOut.join hname, fun names passed hnames =>
    h.outside (name :: names) passed (List.forall_mem_cons.mpr ⟨hname, hnames⟩)⟩

/-- All that is below a path passes by, too. -/
theorem PassesBy.joinAll (h : PassesBy disk path place) (hnames : ∀ name ∈ names, IsName name) :
    PassesBy disk (path.joinAll names) place := by
  induction names generalizing path with
  | nil => exact h
  | cons name names ih =>
    obtain ⟨hname, hnames⟩ := List.forall_mem_cons.mp hnames
    exact ih (h.join hname) hnames

/-- Growth does not lead a path into a place or through it. -/
theorem PassesBy.grows (h : PassesBy before path place) (hgrows : before.Grows after) :
    PassesBy after path place :=
  ⟨h.staysOut.grows hgrows, fun names passed hnames hpasses =>
    h.outside names passed hnames ((hgrows.pathPasses_iff _).mp hpasses)⟩

/-! ### Trees without links -/

namespace Disk

variable {location passed : Location} {steps rest : List Step}

/-- What steps pass is passed by the first ones of them, or by the others from where these lead. -/
theorem Passes.split (h : disk.Passes location (steps ++ rest) passed) :
    disk.Passes location steps passed ∨
      ∃ middle, disk.Leads location steps middle ∧ disk.Passes middle rest passed := by
  -- By induction on the whole way; at each step the first part is used up, or goes on.
  generalize hall : steps ++ rest = all at h
  induction h generalizing steps with
  | here location => exact .inl (.here _ _)
  | @stay location passed more h ih =>
    cases steps with
    | nil => exact .inr ⟨location, .here _, by rw [List.nil_append] at hall; exact hall ▸ .stay h⟩
    | cons step steps =>
      obtain ⟨rfl, rfl⟩ := List.cons.inj hall
      rcases ih rfl with hfirst | ⟨middle, hfirst, hlast⟩
      · exact .inl (.stay hfirst)
      · exact .inr ⟨middle, .stay hfirst, hlast⟩
  | @up location passed more h ih =>
    cases steps with
    | nil => exact .inr ⟨location, .here _, by rw [List.nil_append] at hall; exact hall ▸ .up h⟩
    | cons step steps =>
      obtain ⟨rfl, rfl⟩ := List.cons.inj hall
      rcases ih rfl with hfirst | ⟨middle, hfirst, hlast⟩
      · exact .inl (.up hfirst)
      · exact .inr ⟨middle, .up hfirst, hlast⟩
  | @down location passed name more hno h ih =>
    cases steps with
    | nil => exact .inr ⟨location, .here _, by rw [List.nil_append] at hall; exact hall ▸ .down hno h⟩
    | cons step steps =>
      obtain ⟨rfl, rfl⟩ := List.cons.inj hall
      rcases ih rfl with hfirst | ⟨middle, hfirst, hlast⟩
      · exact .inl (.down hno hfirst)
      · exact .inr ⟨middle, .down hno hfirst, hlast⟩
  | @link location passed name more path hlink h ih =>
    cases steps with
    | nil =>
      exact .inr ⟨location, .here _, by rw [List.nil_append] at hall; exact hall ▸ .link hlink h⟩
    | cons step steps =>
      obtain ⟨rfl, rfl⟩ := List.cons.inj hall
      rcases ih (List.append_assoc ..) with hfirst | ⟨middle, hfirst, hlast⟩
      · exact .inl (.link hlink hfirst)
      · exact .inr ⟨middle, .link hlink hfirst, hlast⟩

/-- What the first steps pass all steps pass. -/
theorem Passes.append (h : disk.Passes location steps passed) (rest : List Step) :
    disk.Passes location (steps ++ rest) passed := by
  induction h with
  | here location steps => exact .here _ _
  | stay _ ih => exact .stay ih
  | up _ ih => exact .up ih
  | down hno _ ih => exact .down hno ih
  | link hlink _ ih => exact .link hlink (by simpa using ih)

/-- A path continued by a name passes what the path passes, and what the name passes from the end of
    the path. -/
theorem pathPasses_join {path : Path} {name : String} (hname : IsName name)
    (h : disk.PathPasses (path.join name) passed) :
    disk.PathPasses path passed ∨
      ∃ location, disk.PathLeads path location ∧ disk.Passes location [.down name] passed := by
  obtain ⟨stays, hsteps⟩ := path.exists_steps_eq_front
  have horigin : (path.join name).origin disk.home = path.origin disk.home := by
    rw [Path.origin, Path.origin, path.isAbsolute_join hname]
  rw [PathPasses, horigin, path.steps_join hname] at h
  simp only [PathPasses, PathLeads, hsteps]
  rcases h.split with h | ⟨middle, hleads, h⟩
  · exact .inl (h.append _)
  · exact .inr ⟨middle, (leads_append_stays stays).mpr hleads, h⟩

/-- Without links a step down passes nothing but the place where it starts and the one below. -/
theorem Passes.eq_of_down {name : String} (hno : disk.NoLinksBelow location)
    (h : disk.Passes location [.down name] passed) :
    passed = location ∨ passed = name :: location := by
  cases h with
  | here => exact .inl rfl
  | down _ h =>
    cases h
    exact .inr rfl
  | link hlink _ => exact absurd hlink (hno name location _ List.suffix_rfl)

end Disk

/-- In a tree without links a source and an output are separate if neither lies in the other one,
    and the path of the source does not go through what is inside the output. -/
theorem separate_of_noLinks (hno : ∀ location, disk.NoLinksBelow location)
    (hsource : disk.PathLeads source start) (houtput : disk.PathLeads output target)
    (hway : ∀ passed, disk.PathPasses source passed → ¬ Disk.Within target passed)
    (hbelow : ¬ target <:+ start) (habove : ¬ start <:+ target) : Separate disk source output := by
  have hapart := apart_of_noLinks hno hsource houtput hbelow habove
  refine ⟨hapart.noLinks, fun place hplace => ⟨hapart.staysOut place hplace, ?_⟩⟩
  cases houtput.unique hplace
  intro names passed hnames hpasses hin
  induction names using List.reverseRecOn generalizing passed with
  | nil => exact hway passed hpasses hin
  | append_singleton names name ih =>
    have hfirst : ∀ other ∈ names, IsName other :=
      fun other hother => hnames other (List.mem_append_left _ hother)
    rw [Path.joinAll_concat] at hpasses
    rcases Disk.pathPasses_join (hnames name (by simp)) hpasses with h | ⟨location, hleads, h⟩
    · exact ih passed hfirst h hin
    · obtain ⟨origin, horigin, hdown⟩ := (Disk.pathLeads_joinAll hfirst).mp hleads
      cases hsource.unique horigin
      -- What the name passes is below the source, so it is not inside the output.
      have hbelow' : start <:+ passed := by
        have hlocation : start <:+ location := by
          rw [hdown.eq_of_noLinks (hno start)]
          exact List.suffix_append _ _
        rcases h.eq_of_down (hno location) with rfl | rfl
        · exact hlocation
        · exact hlocation.trans (List.suffix_cons _ _)
      rcases List.suffix_or_suffix_of_suffix hin.1 hbelow' with h | h
      · exact hbelow h
      · exact habove h

/-! ### Reading while a site is built -/

/-- Once the output directory was made, at `place`, only what is inside it changed. -/
def Building (ready : Disk) (place : Location) (disk : Disk) : Prop :=
  ready.Changes (Disk.Within place) (Disk.Within place) disk

namespace Building

variable {ready : Disk}

theorem refl (ready : Disk) (place : Location) : Building ready place ready :=
  Disk.Changes.refl ready

/-- Further changes may be made inside the output directory. -/
theorem step {dirs files : Location → Prop} (h : Building ready place disk)
    (hstep : disk.Changes dirs files after)
    (hdirs : ∀ location, dirs location → Disk.Within place location)
    (hfiles : ∀ location, files location → Disk.Within place location) :
    Building ready place after :=
  Disk.Changes.trans h (hstep.mono hdirs hfiles)

theorem grows (h : Building ready place disk) : ready.Grows disk :=
  Disk.Changes.grows h

theorem wellFormed (h : Building ready place disk) (wf : ready.WellFormed) : disk.WellFormed :=
  Disk.Changes.wellFormed h wf

section Reading

variable {other : Disk} (h : Building ready place disk) (h' : Building ready place other)
  (hlinks : ready.NoLinksBelow place) (hpath : PassesBy ready path place)

include h h' hlinks hpath

/-- Paths of the source are followed alike. -/
theorem locate_eq (follow : Bool) : other.locate follow path = disk.locate follow path := by
  have hready : ∀ {later : Disk}, Building ready place later →
      later.locate follow path = ready.locate follow path := fun hlater =>
    (Disk.Changes.agreeOn hlater (fun _ => id) fun _ => id).locate hlinks follow
      fun passed => hpath.outside [] passed (by simp)
  exact (hready h').trans (hready h).symm

theorem status_eq : other.status path = disk.status path := by
  rw [Disk.status, Disk.status, h.locate_eq h' hlinks hpath]

theorem isThere?_eq : other.isThere? path = disk.isThere? path := by
  rw [Disk.isThere?, Disk.isThere?, h.status_eq h' hlinks hpath]

theorem readText_eq : other.readText path = disk.readText path := by
  rw [Disk.readText, Disk.readText, Disk.readBytes, Disk.readBytes, h.status_eq h' hlinks hpath]

theorem followEntry_eq (above : List Ancestor) :
    followEntry above path other = followEntry above path disk :=
  followEntry_congr fun follow => h.locate_eq h' hlinks hpath follow

/-- Directories of the source have the same entries, in the same order. -/
theorem list_eq : other.list path = disk.list path := by
  rw [Disk.list, Disk.list, h.status_eq h' hlinks hpath]
  cases hstatus : disk.status path with
  | error e => rfl
  | ok found =>
    obtain ⟨location, node⟩ := found
    cases node with
    | file bytes => rfl
    | link target => rfl
    | dir =>
      have hout : ¬ place <:+ location :=
        (hpath.grows h.grows).staysOut [] location (by simp) (Disk.pathLeads_of_status hstatus).1
      have hready : ∀ {later : Disk}, Building ready place later →
          later.children location = ready.children location := fun hlater =>
        Disk.Changes.children hlater location fun name =>
          ⟨fun hin => hout (Disk.suffix_of_within_cons hin),
            fun hin => hout (Disk.suffix_of_within_cons hin)⟩
      exact congrArg Except.ok ((hready h').trans (hready h).symm)

end Reading

end Building

end PageLoom
