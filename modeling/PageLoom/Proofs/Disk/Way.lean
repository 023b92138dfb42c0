import PageLoom.Disk.Resolve
import PageLoom.Proofs.Disk.Tree

namespace PageLoom

/-!
# Where a path leads

Following a path on a disk fails for many reasons: something on the way is missing or no
directory, the path is too long, the links are too many. Where it leads if it does not fail
depends on the links only. That is said here by a relation:

* `Disk.Leads` — steps lead from one place to another, links replaced by their targets;
* `Disk.Leads.unique`, `Disk.Leads.congr` — to one place only, which the links decide;
* `Disk.PathLeads`, `Disk.Grows.pathLeads_iff` — the same for a path, also on a disk that grew;
* `Disk.pathLeads_join` — where a path leads that was continued by a name.
-/

/-- The location of a place. -/
def Place.location : Place → Location
  | .taken location _ | .free location => location

namespace Disk

/-- The steps lead from one location to another. A link on the way or at the end is replaced by
    its target. Whether the places on the way are there does not matter. -/
inductive Leads (disk : Disk) : Location → List Step → Location → Prop
  | here (location : Location) : Leads disk location [] location
  | stay {location target : Location} {rest : List Step} :
      Leads disk location rest target → Leads disk location (.stay :: rest) target
  | up {location target : Location} {rest : List Step} :
      Leads disk location.tail rest target → Leads disk location (.up :: rest) target
  | down {location target : Location} {name : String} {rest : List Step} :
      (∀ path, disk.node? (name :: location) ≠ some (.link path)) →
      Leads disk (name :: location) rest target → Leads disk location (.down name :: rest) target
  | link {location target : Location} {name : String} {rest : List Step} {path : Path} :
      disk.node? (name :: location) = some (.link path) →
      Leads disk (path.origin location) (path.steps ++ rest) target →
      Leads disk location (.down name :: rest) target

/-- The path leads to the location. -/
def PathLeads (disk : Disk) (path : Path) (location : Location) : Prop :=
  disk.Leads (path.origin disk.home) path.steps location

variable {disk before after : Disk} {location target : Location} {steps rest : List Step}

/-- Steps lead to one place only. -/
theorem Leads.unique {other : Location} (h : disk.Leads location steps target)
    (h' : disk.Leads location steps other) : target = other := by
  induction h with
  | here => cases h'; rfl
  | stay _ ih => cases h' with | stay h' => exact ih h'
  | up _ ih => cases h' with | up h' => exact ih h'
  | down hno _ ih =>
    cases h' with
    | down _ h' => exact ih h'
    | link hlink _ => exact absurd hlink (hno _)
  | link hlink _ ih =>
    cases h' with
    | down hno _ => exact absurd hlink (hno _)
    | link hlink' h' =>
      cases hlink.symm.trans hlink'
      exact ih h'

/-- A path leads to one place only. -/
theorem PathLeads.unique {path : Path} {other : Location} (h : disk.PathLeads path location)
    (h' : disk.PathLeads path other) : location = other :=
  Leads.unique h h'

/-- Where steps lead is decided by the links. -/
theorem Leads.congr {disk' : Disk}
    (hlinks : ∀ location path, disk'.node? location = some (.link path) ↔
      disk.node? location = some (.link path))
    (h : disk.Leads location steps target) : disk'.Leads location steps target := by
  induction h with
  | here location => exact .here location
  | stay _ ih => exact .stay ih
  | up _ ih => exact .up ih
  | down hno _ ih => exact .down (fun path hlink => hno path ((hlinks _ _).mp hlink)) ih
  | link hlink _ ih => exact .link ((hlinks _ _).mpr hlink) ih

/-- Further steps go on from where the first ones led. -/
theorem Leads.append {middle : Location} (h : disk.Leads location steps middle)
    (h' : disk.Leads middle rest target) : disk.Leads location (steps ++ rest) target := by
  induction h with
  | here => exact h'
  | stay _ ih => exact .stay (ih h')
  | up _ ih => exact .up (ih h')
  | down hno _ ih => exact .down hno (ih h')
  | link hlink _ ih => exact .link hlink (by simpa using ih h')

/-- What leads somewhere leads there by way of where its first steps lead. -/
theorem Leads.split (h : disk.Leads location (steps ++ rest) target) :
    ∃ middle, disk.Leads location steps middle ∧ disk.Leads middle rest target := by
  -- By induction on the whole way; at each step the first part is used up, or goes on.
  generalize hall : steps ++ rest = all at h
  induction h generalizing steps with
  | here location =>
    obtain ⟨rfl, rfl⟩ := List.append_eq_nil_iff.mp hall
    exact ⟨location, .here _, .here _⟩
  | @stay location target more h ih =>
    cases steps with
    | nil => exact ⟨location, .here _, by rw [List.nil_append] at hall; rw [hall]; exact .stay h⟩
    | cons step steps =>
      obtain ⟨rfl, rfl⟩ := List.cons.inj hall
      obtain ⟨middle, hfirst, hlast⟩ := ih rfl
      exact ⟨middle, .stay hfirst, hlast⟩
  | @up location target more h ih =>
    cases steps with
    | nil => exact ⟨location, .here _, by rw [List.nil_append] at hall; rw [hall]; exact .up h⟩
    | cons step steps =>
      obtain ⟨rfl, rfl⟩ := List.cons.inj hall
      obtain ⟨middle, hfirst, hlast⟩ := ih rfl
      exact ⟨middle, .up hfirst, hlast⟩
  | @down location target name more hno h ih =>
    cases steps with
    | nil => exact ⟨location, .here _, by rw [List.nil_append] at hall; rw [hall]; exact .down hno h⟩
    | cons step steps =>
      obtain ⟨rfl, rfl⟩ := List.cons.inj hall
      obtain ⟨middle, hfirst, hlast⟩ := ih rfl
      exact ⟨middle, .down hno hfirst, hlast⟩
  | @link location target name more path hlink h ih =>
    cases steps with
    | nil =>
      exact ⟨location, .here _, by rw [List.nil_append] at hall; rw [hall]; exact .link hlink h⟩
    | cons step steps =>
      obtain ⟨rfl, rfl⟩ := List.cons.inj hall
      obtain ⟨middle, hfirst, hlast⟩ := ih (List.append_assoc ..)
      exact ⟨middle, .link hlink hfirst, hlast⟩

/-- Staying leads nowhere else. -/
theorem leads_stays (location : Location) (count : Nat) :
    disk.Leads location (List.replicate count .stay) location := by
  induction count with
  | zero => exact .here _
  | succ count ih => exact .stay ih

/-- A step down to what is no link leads there. -/
theorem leads_down {name : String} (hno : ∀ path, disk.node? (name :: location) ≠ some (.link path)) :
    disk.Leads location [.down name] (name :: location) :=
  .down hno (.here _)

/-! ### Where paths lead -/

/-- Growth does not change where steps lead. -/
theorem Grows.leads_iff (h : before.Grows after) :
    after.Leads location steps target ↔ before.Leads location steps target :=
  ⟨Leads.congr fun location path => (h.link_iff location path).symm, Leads.congr h.link_iff⟩

/-- Growth does not change where a path leads. -/
theorem Grows.pathLeads_iff (h : before.Grows after) (path : Path) :
    after.PathLeads path location ↔ before.PathLeads path location := by
  rw [PathLeads, PathLeads, h.home]
  exact h.leads_iff

/-- A step down to what is no link leads to the place below. -/
theorem Leads.eq_of_down {name : String}
    (hno : ∀ path, disk.node? (name :: location) ≠ some (.link path))
    (h : disk.Leads location [.down name] target) : target = name :: location :=
  h.unique (leads_down hno)

/-- Steps to stay at the end do not change where steps lead. -/
theorem leads_append_stays (count : Nat) :
    disk.Leads location (steps ++ List.replicate count .stay) target ↔
      disk.Leads location steps target := by
  constructor
  · intro h
    obtain ⟨middle, hfirst, hlast⟩ := h.split
    rwa [hlast.unique (leads_stays middle count)]
  · intro h
    exact h.append (leads_stays target count)

/-- **Joined names.** A path continued by a name leads where the name leads from the end of the
    path. -/
theorem pathLeads_join {path : Path} {name : String} (hname : IsName name) :
    disk.PathLeads (path.join name) target ↔
      ∃ location, disk.PathLeads path location ∧ disk.Leads location [.down name] target := by
  obtain ⟨stays, hsteps⟩ := path.exists_steps_eq_front
  have horigin : (path.join name).origin disk.home = path.origin disk.home := by
    rw [Path.origin, Path.origin, path.isAbsolute_join hname]
  simp only [PathLeads, horigin, path.steps_join hname, hsteps, leads_append_stays]
  constructor
  · exact Leads.split
  · rintro ⟨location, hfirst, hlast⟩
    exact hfirst.append hlast

/-- A path continued by the name of no link leads right below where the path leads. -/
theorem pathLeads_join_iff {path : Path} {name : String} (hname : IsName name)
    (hpath : disk.PathLeads path location)
    (hno : ∀ target, disk.node? (name :: location) ≠ some (.link target)) :
    disk.PathLeads (path.join name) target ↔ target = name :: location := by
  rw [pathLeads_join hname]
  constructor
  · rintro ⟨other, hother, hdown⟩
    cases hother.unique hpath
    exact hdown.eq_of_down hno
  · rintro rfl
    exact ⟨location, hpath, leads_down hno⟩

/-- A trimmed path leads where the path leads. -/
theorem pathLeads_of_trims {long short : Path} (h : long.Trims short) :
    disk.PathLeads short location ↔ disk.PathLeads long location := by
  obtain ⟨way, more, less, hlong, hshort⟩ := h.steps
  have horigin : short.origin disk.home = long.origin disk.home := by
    rw [Path.origin, Path.origin, h.absolute]
  rw [PathLeads, PathLeads, horigin, hlong, hshort, leads_append_stays, leads_append_stays]

end Disk

end PageLoom
