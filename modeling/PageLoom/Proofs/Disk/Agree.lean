import PageLoom.Proofs.Disk.Below

namespace PageLoom

/-!
# Disks that agree

What is found by following a path depends only on the places that the path passes. So a path is
followed alike on two disks that agree everywhere but inside one directory, if it does not pass
through that directory.

* `Disk.AgreeOn` — two disks hold the same at some places;
* `Disk.Passes` — the places that a way passes;
* `Within` — the places inside a directory;
* `Disk.SameWay`, `Disk.travel_congr` — steps are followed alike where nothing on their way makes a
  difference;
* `Disk.Grows.locate_eq`, `Disk.AgreeOn.locate` — so are paths that pass by what changed.
-/

namespace Disk

variable {disk other third before after : Disk} {on wider : Location → Prop}
  {location passed place : Location} {steps rest : List Step}

/-! ### Agreement -/

/-- Two disks hold the same at the places `on`, and paths start from the same place on both. -/
structure AgreeOn (on : Location → Prop) (disk other : Disk) : Prop where
  home : other.home = disk.home
  node : ∀ location, on location → other.node? location = disk.node? location

theorem AgreeOn.refl (on : Location → Prop) (disk : Disk) : AgreeOn on disk disk :=
  ⟨rfl, fun _ _ => rfl⟩

theorem AgreeOn.symm (h : AgreeOn on disk other) : AgreeOn on other disk :=
  ⟨h.home.symm, fun location hon => (h.node location hon).symm⟩

theorem AgreeOn.trans (h : AgreeOn on disk other) (h' : AgreeOn on other third) :
    AgreeOn on disk third :=
  ⟨h'.home.trans h.home, fun location hon => (h'.node location hon).trans (h.node location hon)⟩

/-- Disks that agree on some places agree on fewer places. -/
theorem AgreeOn.mono (h : AgreeOn wider disk other) (hon : ∀ location, on location → wider location) :
    AgreeOn on disk other :=
  ⟨h.home, fun location hlocation => h.node location (hon location hlocation)⟩

/-- The same node put on both disks leaves them agreeing. -/
theorem AgreeOn.put (h : AgreeOn on disk other) (name : String) (up : Location) (node : Node) :
    AgreeOn on (disk.put (name :: up) node) (other.put (name :: up) node) := by
  refine ⟨h.home, fun location hon => ?_⟩
  by_cases hplace : location = name :: up
  · rw [hplace, node?_put_self, node?_put_self]
  · rw [node?_put_of_ne _ _ hplace, node?_put_of_ne _ _ hplace, h.node location hon]

/-- A disk agrees with what it was before where nothing changed. -/
theorem Changes.agreeOn {dirs files : Location → Prop} (h : before.Changes dirs files after)
    (hdirs : ∀ location, on location → ¬ dirs location)
    (hfiles : ∀ location, on location → ¬ files location) : AgreeOn on before after :=
  ⟨h.grows.home, fun location hon => h.node_eq (hdirs location hon) (hfiles location hon)⟩

/-! ### Ways -/

/-- The steps pass a location, links replaced by their targets. The start and the end are passed,
    too. -/
inductive Passes (disk : Disk) : Location → List Step → Location → Prop
  | here (location : Location) (steps : List Step) : Passes disk location steps location
  | stay {location passed : Location} {rest : List Step} :
      Passes disk location rest passed → Passes disk location (.stay :: rest) passed
  | up {location passed : Location} {rest : List Step} :
      Passes disk location.tail rest passed → Passes disk location (.up :: rest) passed
  | down {location passed : Location} {name : String} {rest : List Step} :
      (∀ path, disk.node? (name :: location) ≠ some (.link path)) →
      Passes disk (name :: location) rest passed → Passes disk location (.down name :: rest) passed
  | link {location passed : Location} {name : String} {rest : List Step} {path : Path} :
      disk.node? (name :: location) = some (.link path) →
      Passes disk (path.origin location) (path.steps ++ rest) passed →
      Passes disk location (.down name :: rest) passed

/-- The path passes the location. -/
def PathPasses (disk : Disk) (path : Path) (passed : Location) : Prop :=
  disk.Passes (path.origin disk.home) path.steps passed

/-- What steps pass is decided by the links. -/
theorem Passes.congr
    (hlinks : ∀ location path, other.node? location = some (.link path) ↔
      disk.node? location = some (.link path))
    (h : disk.Passes location steps passed) : other.Passes location steps passed := by
  induction h with
  | here location steps => exact .here location steps
  | stay _ ih => exact .stay ih
  | up _ ih => exact .up ih
  | down hno _ ih => exact .down (fun path hlink => hno path ((hlinks _ _).mp hlink)) ih
  | link hlink _ ih => exact .link ((hlinks _ _).mpr hlink) ih

/-- Growth does not change what a path passes. -/
theorem Grows.pathPasses_iff (h : before.Grows after) (path : Path) :
    after.PathPasses path passed ↔ before.PathPasses path passed := by
  rw [PathPasses, PathPasses, h.home]
  exact ⟨Passes.congr fun location path => (h.link_iff location path).symm, Passes.congr h.link_iff⟩

/-- What the target of a link passes and the rest behind it is passed by the steps that met the
    link. -/
theorem Passes.of_advance_link {follow : Bool} {directory : Location} {path : Path}
    (hadvance : disk.advance follow location steps = .ok (.link directory path rest))
    (h : disk.Passes (path.origin directory) (path.steps ++ rest) passed) :
    disk.Passes location steps passed := by
  induction steps generalizing location with
  | nil =>
    rw [advance_nil] at hadvance
    split at hadvance <;> cases hadvance
  | cons step steps ih =>
    obtain ⟨-, ⟨rfl, hgo⟩ | ⟨rfl, hgo⟩ | ⟨name, rfl, -, hgo⟩⟩ := advance_cons_ok hadvance
    · exact .stay (ih hgo)
    · exact .up (ih hgo)
    rcases hgo with ⟨-, -, hplace⟩ | ⟨path, hlink, ⟨-, -, hplace⟩ | ⟨-, hplace⟩⟩ |
      ⟨⟨node, hnode, hother⟩, hgo⟩
    · cases hplace
    · cases hplace
    · cases hplace
      exact .link hlink h
    · refine .down (fun path hlink => hother path ?_) (ih hgo)
      rw [hnode] at hlink
      exact Option.some.inj hlink

/-- The end of a way is passed. -/
theorem Passes.of_leads (h : disk.Leads location steps passed) :
    disk.Passes location steps passed := by
  induction h with
  | here location => exact .here _ _
  | stay _ ih => exact .stay ih
  | up _ ih => exact .up ih
  | down hno _ ih => exact .down hno ih
  | link hlink _ ih => exact .link hlink ih

/-! ### Inside and outside of a directory -/

/-- The location is inside the directory that stands at `place`. -/
def Within (place location : Location) : Prop :=
  place <:+ location ∧ location ≠ place

/-- What stands in a directory, or in one that is inside it, is inside the directory. -/
theorem within_cons {name : String} (h : place <:+ location) : Within place (name :: location) := by
  refine ⟨h.trans (List.suffix_cons _ _), fun heq => ?_⟩
  have hlength := h.length_le
  rw [← heq, List.length_cons] at hlength
  omega

/-- No entry of a directory is below another one. -/
theorem not_below_sibling {name other : String} (h : name ≠ other) :
    ¬ other :: place <:+ name :: place := by
  intro hbelow
  exact h (List.cons.inj (hbelow.eq_of_length rfl)).1.symm

/-- All that is inside a directory stands in the directory itself, or in one that is inside it. -/
theorem suffix_of_within_cons {name : String} (h : Within place (name :: location)) :
    place <:+ location :=
  (List.suffix_cons_iff.mp h.1).resolve_left (Ne.symm h.2)

/-! ### Following what is the same -/

/-- To what is followed two nodes make no difference: they are the same, or both are files. -/
inductive SameWay : Option Node → Option Node → Prop
  | same (node : Option Node) : SameWay node node
  | files (old new : ByteArray) : SameWay (some (.file old)) (some (.file new))

/-- Growth makes no such difference where something stands already. -/
theorem Grows.sameWay (h : before.Grows after) (hfree : before.node? location = none →
    after.node? location = none) : SameWay (before.node? location) (after.node? location) := by
  have hbecomes := h.becomes location
  generalize before.node? location = old, after.node? location = new at hbecomes hfree
  cases hbecomes with
  | same => exact .same _
  | dir => cases hfree rfl
  | file bytes => cases hfree rfl
  | rewritten old new => exact .files old new

/-- Directories are directories on both disks. -/
theorem isDir_of_sameWay (h : SameWay (disk.node? location) (other.node? location)) :
    other.isDir location = disk.isDir location := by
  rw [isDir, isDir]
  generalize disk.node? location = old, other.node? location = new at h
  cases h <;> rfl

/-- Steps are followed up to the same place, or to the same link, on another disk that has the links,
    where nothing on their way makes a difference and the same stands at their end. -/
theorem advance_congr (follow : Bool)
    (hlinks : ∀ location path, disk.node? location = some (.link path) →
      other.node? location = some (.link path))
    (hway : ∀ passed, disk.Passes location steps passed →
      SameWay (disk.node? passed) (other.node? passed))
    (hend : ∀ target, disk.Leads location steps target →
      other.node? target = disk.node? target) :
    other.advance follow location steps = disk.advance follow location steps := by
  induction steps generalizing location with
  | nil => rw [advance_nil, advance_nil, hend _ (.here _)]
  | cons step steps ih =>
    have hhere := isDir_of_sameWay (hway _ (.here _ _))
    cases step with
    | stay =>
      rw [advance_stay, advance_stay, hhere,
        ih (fun passed h => hway passed (.stay h)) fun target h => hend target (.stay h)]
    | up =>
      rw [advance_up, advance_up, hhere,
        ih (fun passed h => hway passed (.up h)) fun target h => hend target (.up h)]
    | down name =>
      rw [advance_down, advance_down, hhere]
      by_cases hlink : ∃ path, disk.node? (name :: location) = some (.link path)
      · obtain ⟨path, hlink⟩ := hlink
        rw [hlink, hlinks _ _ hlink]
      · -- What is no link is passed, and what follows goes on from there.
        have hno := not_exists.mp hlink
        have hgo : other.advance follow (name :: location) steps =
            disk.advance follow (name :: location) steps :=
          ih (fun passed h => hway passed (.down hno h)) fun target h => hend target (.down hno h)
        have hbelow := hway _ (.down hno (.here _ _))
        generalize disk.node? (name :: location) = old, other.node? (name :: location) = new
          at hbelow hno
        cases hbelow with
        | same =>
          cases old with
          | none => rfl
          | some node =>
            cases node with
            | link path => exact absurd rfl (hno path)
            | file bytes => simp only [hgo]
            | dir => simp only [hgo]
        | files old new => simp only [hgo]

/-- Steps are followed alike on another disk that has the links, where nothing on their way makes a
    difference and the same stands at their end. -/
theorem travel_congr (follow : Bool) (links : Nat)
    (hlinks : ∀ location path, disk.node? location = some (.link path) →
      other.node? location = some (.link path))
    (hway : ∀ passed, disk.Passes location steps passed →
      SameWay (disk.node? passed) (other.node? passed))
    (hend : ∀ target, disk.Leads location steps target →
      other.node? target = disk.node? target) :
    other.travel follow links location steps = disk.travel follow links location steps := by
  induction links generalizing location steps with
  | zero =>
    rw [Disk.travel, Disk.travel, advance_congr follow hlinks hway hend]
  | succ links ih =>
    rw [Disk.travel, Disk.travel, advance_congr follow hlinks hway hend]
    cases hadvance : disk.advance follow location steps with
    | error e => rfl
    | ok hop =>
      cases hop with
      | arrived place => rfl
      | link directory path rest =>
        exact ih (fun passed h => hway passed (.of_advance_link hadvance h))
          fun target h => hend target (leads_of_advance_link hadvance h)

/-- **Paths.** On a disk that grew, a path is followed as before if nothing was made where it passes
    and nothing changed where it leads. -/
theorem Grows.locate_eq (h : before.Grows after) (follow : Bool) {path : Path}
    (hfree : ∀ passed, before.PathPasses path passed → before.node? passed = none →
      after.node? passed = none)
    (hend : ∀ target, before.PathLeads path target →
      after.node? target = before.node? target) :
    after.locate follow path = before.locate follow path := by
  rw [Disk.locate, Disk.locate, h.home,
    travel_congr follow linkLimit (fun location path => (h.link_iff location path).mpr)
      (fun passed hpasses => h.sameWay (hfree passed hpasses)) hend]

/-- **Outside.** A path that keeps outside of a directory without links is followed alike on two
    disks that agree outside. -/
theorem AgreeOn.locate (hagree : AgreeOn (¬ Within place ·) disk other)
    (hlinks : disk.NoLinksBelow place) (follow : Bool) {path : Path}
    (houtside : ∀ passed, disk.PathPasses path passed → ¬ Within place passed) :
    other.locate follow path = disk.locate follow path := by
  have hsame : ∀ passed, disk.PathPasses path passed → other.node? passed = disk.node? passed :=
    fun passed h => hagree.node _ (houtside passed h)
  rw [Disk.locate, Disk.locate, hagree.home, travel_congr follow linkLimit ?_
    (fun passed h => hsame passed h ▸ .same _) fun target h => hsame target (.of_leads h)]
  -- no link stands inside, so all of them are on the other disk, too
  intro location target hlink
  refine (hagree.node location fun hin => ?_).trans hlink
  cases location with
  | nil => cases hlink
  | cons name up => exact hlinks name up target (suffix_of_within_cons hin) hlink

end Disk

end PageLoom
