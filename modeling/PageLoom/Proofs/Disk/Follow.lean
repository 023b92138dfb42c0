import PageLoom.Proofs.Disk.Way

namespace PageLoom

/-!
# Following a path leads where the path leads

Whatever is found by following steps is where the steps lead. The steps up to the next link are
followed by recursion on the steps, and from link to link by recursion on the number of links that
may still be followed.

* `Disk.advance_cons_ok`, `Disk.travel_induction` — one step, and one link after the other;
* `Disk.leads_of_travel`, `Disk.node?_of_travel_taken`, `Disk.node?_of_travel_free` — what is found;
* `Disk.pathLeads_of_status` — the same for paths.
-/

namespace Disk

variable {disk : Disk} {location target : Location} {steps rest : List Step}

/-! ### Following steps -/

theorem advance_nil (follow : Bool) (location : Location) :
    disk.advance follow location [] =
      match disk.node? location with
      | some node => .ok (.arrived (.taken location node))
      | none => .error .notFound := rfl

theorem advance_stay (follow : Bool) (location : Location) (rest : List Step) :
    disk.advance follow location (.stay :: rest) =
      if disk.isDir location then disk.advance follow location rest else .error .notDirectory := by
  rw [advance.eq_def]
  cases disk.isDir location <;> rfl

theorem advance_up (follow : Bool) (location : Location) (rest : List Step) :
    disk.advance follow location (.up :: rest) =
      if disk.isDir location then disk.advance follow location.tail rest
      else .error .notDirectory := by
  rw [advance.eq_def]
  cases disk.isDir location <;> rfl

theorem advance_down (follow : Bool) (location : Location) (name : String) (rest : List Step) :
    disk.advance follow location (.down name :: rest) =
      if disk.isDir location then
        if name.utf8ByteSize > nameLimit then .error .nameTooLong
        else
          match disk.node? (name :: location) with
          | none =>
            if rest.isEmpty then .ok (.arrived (.free (name :: location))) else .error .notFound
          | some (.link target) =>
            if rest.isEmpty && !follow then
              .ok (.arrived (.taken (name :: location) (.link target)))
            else .ok (.link location target rest)
          | some _ => disk.advance follow (name :: location) rest
      else .error .notDirectory := by
  rw [advance.eq_def]
  cases disk.isDir location <;> rfl

/-- **One step.** What following steps does with its first step, if it does not fail there. -/
theorem advance_cons_ok {follow : Bool} {step : Step} {hop : Hop}
    (h : disk.advance follow location (step :: rest) = .ok hop) :
    disk.node? location = some .dir ∧
      ((step = .stay ∧ disk.advance follow location rest = .ok hop) ∨
       (step = .up ∧ disk.advance follow location.tail rest = .ok hop) ∨
       ∃ name, step = .down name ∧ name.utf8ByteSize ≤ nameLimit ∧
        ((disk.node? (name :: location) = none ∧ rest = [] ∧
            hop = .arrived (.free (name :: location))) ∨
         (∃ path, disk.node? (name :: location) = some (.link path) ∧
            ((rest = [] ∧ follow = false ∧
                hop = .arrived (.taken (name :: location) (.link path))) ∨
             ((rest ≠ [] ∨ follow = true) ∧ hop = .link location path rest))) ∨
         ((∃ node, disk.node? (name :: location) = some node ∧ ∀ path, node ≠ .link path) ∧
            disk.advance follow (name :: location) rest = .ok hop))) := by
  cases step with
  | stay =>
    rw [advance_stay] at h
    split at h
    · rename_i hdir
      exact ⟨of_decide_eq_true hdir, .inl ⟨rfl, h⟩⟩
    · cases h
  | up =>
    rw [advance_up] at h
    split at h
    · rename_i hdir
      exact ⟨of_decide_eq_true hdir, .inr (.inl ⟨rfl, h⟩)⟩
    · cases h
  | down name =>
    rw [advance_down] at h
    split at h
    · rename_i hdir
      split at h
      · cases h
      · rename_i hsize
        refine ⟨of_decide_eq_true hdir, .inr (.inr ⟨name, rfl, Nat.le_of_not_lt hsize, ?_⟩)⟩
        -- What stands under the name decides: nothing, a link, or something else.
        split at h
        · rename_i hnone
          split at h
          · rename_i hempty
            cases h
            exact .inl ⟨hnone, List.isEmpty_iff.mp hempty, rfl⟩
          · cases h
        · rename_i path hlink
          refine .inr (.inl ⟨path, hlink, ?_⟩)
          split at h
          · rename_i hlast
            cases h
            simp only [Bool.and_eq_true, Bool.not_eq_true', List.isEmpty_iff] at hlast
            exact .inl ⟨hlast.1, hlast.2, rfl⟩
          · rename_i hlast
            cases h
            refine .inr ⟨?_, rfl⟩
            simp only [Bool.and_eq_true, Bool.not_eq_true', List.isEmpty_iff, not_and] at hlast
            by_cases hrest : rest = []
            · exact .inr (by simpa using hlast hrest)
            · exact .inl hrest
        · rename_i node hother hnode
          exact .inr (.inr ⟨⟨node, hnode, hother⟩, h⟩)
    · cases h

/-- Following steps up to the end leads where the steps lead, unless it ends at a link. -/
theorem leads_of_advance {follow : Bool} {place : Place}
    (hend : follow = true ∨ ∀ path, place ≠ .taken place.location (.link path))
    (h : disk.advance follow location steps = .ok (.arrived place)) :
    disk.Leads location steps place.location := by
  induction steps generalizing location with
  | nil =>
    rw [advance_nil] at h
    split at h
    · cases h
      exact .here _
    · cases h
  | cons step steps ih =>
    obtain ⟨-, ⟨rfl, hgo⟩ | ⟨rfl, hgo⟩ | ⟨name, rfl, -, hgo⟩⟩ := advance_cons_ok h
    · exact .stay (ih hgo)
    · exact .up (ih hgo)
    rcases hgo with ⟨hnone, rfl, hplace⟩ | ⟨path, -, ⟨-, hfollow, hplace⟩ | ⟨-, hplace⟩⟩ |
      ⟨⟨node, hnode, hother⟩, hgo⟩
    · cases hplace
      exact leads_down fun path hlink => by rw [hnone] at hlink; cases hlink
    · cases hplace
      rcases hend with htrue | hend
      · rw [hfollow] at htrue
        cases htrue
      · exact absurd rfl (hend path)
    · cases hplace
    · refine .down (fun path hlink => hother path ?_) (ih hgo)
      rw [hnode] at hlink
      exact Option.some.inj hlink

/-- Following steps up to a link leads where the link's target and the rest lead. -/
theorem leads_of_advance_link {follow : Bool} {directory : Location} {path : Path}
    (h : disk.advance follow location steps = .ok (.link directory path rest))
    (hrest : disk.Leads (path.origin directory) (path.steps ++ rest) target) :
    disk.Leads location steps target := by
  induction steps generalizing location with
  | nil =>
    rw [advance_nil] at h
    split at h <;> cases h
  | cons step steps ih =>
    obtain ⟨-, ⟨rfl, hgo⟩ | ⟨rfl, hgo⟩ | ⟨name, rfl, -, hgo⟩⟩ := advance_cons_ok h
    · exact .stay (ih hgo)
    · exact .up (ih hgo)
    rcases hgo with ⟨-, -, hplace⟩ | ⟨path, hlink, ⟨-, -, hplace⟩ | ⟨-, hplace⟩⟩ |
      ⟨⟨node, hnode, hother⟩, hgo⟩
    · cases hplace
    · cases hplace
    · cases hplace
      exact .link hlink hrest
    · refine .down (fun path hlink => hother path ?_) (ih hgo)
      rw [hnode] at hlink
      exact Option.some.inj hlink

/-- What is found at the end of steps is there. -/
theorem node?_of_advance_taken {follow : Bool} {found : Location} {node : Node}
    (h : disk.advance follow location steps = .ok (.arrived (.taken found node))) :
    disk.node? found = some node := by
  induction steps generalizing location with
  | nil =>
    rw [advance_nil] at h
    split at h
    · rename_i hnode
      cases h
      exact hnode
    · cases h
  | cons step steps ih =>
    obtain ⟨-, ⟨rfl, hgo⟩ | ⟨rfl, hgo⟩ | ⟨name, rfl, -, hgo⟩⟩ := advance_cons_ok h
    · exact ih hgo
    · exact ih hgo
    rcases hgo with ⟨-, -, hplace⟩ | ⟨path, hlink, ⟨-, -, hplace⟩ | ⟨-, hplace⟩⟩ | ⟨-, hgo⟩
    · cases hplace
    · cases hplace
      exact hlink
    · cases hplace
    · exact ih hgo

/-- A free place at the end of steps is a new name in a directory, and the last step spells
    it. -/
theorem node?_of_advance_free {follow : Bool} {found : Location}
    (h : disk.advance follow location steps = .ok (.arrived (.free found))) :
    ∃ name up, found = name :: up ∧ .down name ∈ steps ∧ disk.node? up = some .dir ∧
      disk.node? found = none := by
  induction steps generalizing location with
  | nil =>
    rw [advance_nil] at h
    split at h <;> cases h
  | cons step steps ih =>
    obtain ⟨hdir, ⟨rfl, hgo⟩ | ⟨rfl, hgo⟩ | ⟨name, rfl, -, hgo⟩⟩ := advance_cons_ok h
    · obtain ⟨name, up, hfound, hmem, hup⟩ := ih hgo
      exact ⟨name, up, hfound, List.mem_cons_of_mem _ hmem, hup⟩
    · obtain ⟨name, up, hfound, hmem, hup⟩ := ih hgo
      exact ⟨name, up, hfound, List.mem_cons_of_mem _ hmem, hup⟩
    rcases hgo with ⟨hnone, rfl, hplace⟩ | ⟨path, -, ⟨-, -, hplace⟩ | ⟨-, hplace⟩⟩ | ⟨-, hgo⟩
    · cases hplace
      exact ⟨name, location, rfl, List.mem_cons_self, hdir, hnone⟩
    · cases hplace
    · cases hplace
    · obtain ⟨name, up, hfound, hmem, hup⟩ := ih hgo
      exact ⟨name, up, hfound, List.mem_cons_of_mem _ hmem, hup⟩

/-- What comes behind a link that was met is the end of the steps. -/
theorem suffix_of_advance_link {follow : Bool} {directory : Location} {path : Path}
    (h : disk.advance follow location steps = .ok (.link directory path rest)) : rest <:+ steps := by
  induction steps generalizing location with
  | nil =>
    rw [advance_nil] at h
    split at h <;> cases h
  | cons step steps ih =>
    obtain ⟨-, ⟨rfl, hgo⟩ | ⟨rfl, hgo⟩ | ⟨name, rfl, -, hgo⟩⟩ := advance_cons_ok h
    · exact (ih hgo).trans (List.suffix_cons _ _)
    · exact (ih hgo).trans (List.suffix_cons _ _)
    rcases hgo with ⟨-, -, hplace⟩ | ⟨path, -, ⟨-, -, hplace⟩ | ⟨-, hplace⟩⟩ | ⟨-, hgo⟩
    · cases hplace
    · cases hplace
    · cases hplace
      exact List.suffix_cons _ _
    · exact (ih hgo).trans (List.suffix_cons _ _)

/-! ### From link to link -/

/-- **Induction on links.** What is found by following steps is at their end, or it is found by going
    on from the target of a link, which uses up one of the links that may be followed. -/
theorem travel_induction {follow : Bool} {place : Place} {motive : Nat → Location → List Step → Prop}
    (arrived : ∀ {links location steps},
      disk.advance follow location steps = .ok (.arrived place) → motive links location steps)
    (link : ∀ {links location steps directory path rest},
      disk.advance follow location steps = .ok (.link directory path rest) →
      motive links (path.origin directory) (path.steps ++ rest) → motive (links + 1) location steps)
    {links : Nat} (h : disk.travel follow links location steps = .ok place) :
    motive links location steps := by
  induction links generalizing location steps with
  | zero =>
    rw [travel] at h
    split at h
    · cases h
    · rename_i harrived
      cases h
      exact arrived harrived
    · cases h
  | succ links ih =>
    rw [travel] at h
    split at h
    · cases h
    · rename_i harrived
      cases h
      exact arrived harrived
    · rename_i hlink
      exact link hlink (ih h)

/-- **Following a path.** What is found is where the steps lead, unless it is a link. -/
theorem leads_of_travel {follow : Bool} {links : Nat} {place : Place}
    (hend : follow = true ∨ ∀ path, place ≠ .taken place.location (.link path))
    (h : disk.travel follow links location steps = .ok place) :
    disk.Leads location steps place.location :=
  travel_induction (motive := fun _ location steps => disk.Leads location steps place.location)
    (leads_of_advance hend) leads_of_advance_link h

/-- What is found by following steps is there. -/
theorem node?_of_travel_taken {follow : Bool} {links : Nat} {found : Location} {node : Node}
    (h : disk.travel follow links location steps = .ok (.taken found node)) :
    disk.node? found = some node :=
  travel_induction (motive := fun _ _ _ => disk.node? found = some node) node?_of_advance_taken
    (fun _ ih => ih) h

/-- A free place found by following steps that spell names is a new name in a directory. -/
theorem node?_of_travel_free {follow : Bool} {links : Nat} {found : Location}
    (hsteps : ∀ name, .down name ∈ steps → IsName name)
    (h : disk.travel follow links location steps = .ok (.free found)) :
    ∃ name up, found = name :: up ∧ IsName name ∧ disk.node? up = some .dir ∧
      disk.node? found = none := by
  revert hsteps
  refine travel_induction (motive := fun _ _ steps => (∀ name, .down name ∈ steps → IsName name) →
    ∃ name up, found = name :: up ∧ IsName name ∧ disk.node? up = some .dir ∧
      disk.node? found = none) ?_ ?_ h
  · intro links location steps harrived hsteps
    obtain ⟨name, up, hfound, hmem, hup⟩ := node?_of_advance_free harrived
    exact ⟨name, up, hfound, hsteps name hmem, hup⟩
  · intro links location steps directory path rest hlink ih hsteps
    refine ih fun name hname => ?_
    rcases List.mem_append.mp hname with hname | hname
    · exact Path.isName_of_down_mem_steps hname
    · -- What comes behind the link was among the steps.
      exact hsteps name ((suffix_of_advance_link hlink).subset hname)

/-! ### Following paths -/

/-- A path is followed by its steps, unless it cannot be followed on any disk. -/
theorem locate_ok_iff {follow : Bool} {path : Path} {place : Place} :
    disk.locate follow path = .ok place ↔ path.fault? = none ∧
      disk.travel follow linkLimit (path.origin disk.home) path.steps = .ok place := by
  rw [locate]
  cases path.fault? <;> simp

/-- A path without the slashes at its end is followed by its steps. -/
theorem locateEntry_ok_iff {path : Path} {place : Place} :
    disk.locateEntry path = .ok place ↔ path.fault? = none ∧
      disk.travel false linkLimit (path.origin disk.home) path.withoutSlashes.steps = .ok place := by
  rw [locateEntry]
  cases path.fault? <;> simp

/-- A path leads to the place that is found, unless that is a link. -/
theorem pathLeads_of_locate {follow : Bool} {path : Path} {place : Place}
    (hend : follow = true ∨ ∀ target, place ≠ .taken place.location (.link target))
    (h : disk.locate follow path = .ok place) : disk.PathLeads path place.location :=
  leads_of_travel hend (locate_ok_iff.mp h).2

/-- The status of a path is that of the place it was found at. -/
theorem status_ok_iff {path : Path} {node : Node} :
    disk.status path = .ok (location, node) ↔ disk.locate true path = .ok (.taken location node) := by
  rw [status]
  cases hplace : disk.locate true path with
  | error e => simp [bind, Except.bind]
  | ok place => cases place <;> simp [bind, Except.bind, pure, Except.pure, throw, throwThe,
      MonadExceptOf.throw]

/-- The status of a path's own node is that of the place it was found at. -/
theorem linkStatus_ok_iff {path : Path} {node : Node} :
    disk.linkStatus path = .ok (location, node) ↔
      disk.locate false path = .ok (.taken location node) := by
  rw [linkStatus]
  cases hplace : disk.locate false path with
  | error e => simp [bind, Except.bind]
  | ok place => cases place <;> simp [bind, Except.bind, pure, Except.pure, throw, throwThe,
      MonadExceptOf.throw]

/-- **Status.** A path whose node is found leads to it, and it is there. -/
theorem pathLeads_of_status {path : Path} {node : Node}
    (h : disk.status path = .ok (location, node)) :
    disk.PathLeads path location ∧ disk.node? location = some node := by
  rw [status_ok_iff] at h
  exact ⟨pathLeads_of_locate (.inl rfl) h, node?_of_travel_taken (locate_ok_iff.mp h).2⟩

/-- What a path names is there. -/
theorem node?_of_linkStatus {path : Path} {node : Node}
    (h : disk.linkStatus path = .ok (location, node)) : disk.node? location = some node :=
  node?_of_travel_taken (locate_ok_iff.mp (linkStatus_ok_iff.mp h)).2

/-- What a path leads to is there if its status can be told. -/
theorem isThere_iff {path : Path} :
    disk.isThere path = true ↔ ∃ location node, disk.status path = .ok (location, node) := by
  rw [isThere]
  cases disk.status path with
  | ok found => exact ⟨fun _ => ⟨found.1, found.2, rfl⟩, fun _ => rfl⟩
  | error e => simp

/-- If it can be told whether a path leads to something, that is told. -/
theorem isThere_of_isThere? {path : Path} {answer : Bool} (h : disk.isThere? path = .ok answer) :
    disk.isThere path = answer := by
  rw [isThere?] at h
  rw [isThere]
  split at h
  · rename_i hstatus
    cases h
    rw [hstatus]
  · rename_i hnone
    cases h
    rw [hnone]
  · cases h

/-- A free place that a path leads to is a new name in a directory. -/
theorem node?_of_locate_free {follow : Bool} {path : Path} {found : Location}
    (h : disk.locate follow path = .ok (.free found)) :
    ∃ name up, found = name :: up ∧ IsName name ∧ disk.node? up = some .dir ∧
      disk.node? found = none :=
  node?_of_travel_free (fun _ => Path.isName_of_down_mem_steps) (locate_ok_iff.mp h).2

end Disk

end PageLoom
