import PageLoom.Proofs.Disk.Follow

namespace PageLoom

/-!
# Following a path again

What steps lead to is found again when more steps to stay follow, and on a disk that kept its
directories and links.

* `Disk.travel_of_append`, `Disk.travel_stays_iff` — the first ones of some steps, and steps to
  stay at the end;
* `Disk.Keeps`, `Disk.Keeps.travel` — a disk that kept its directories and links;
* `Disk.Keeps.status`, `Disk.Keeps.linkStatus`, `Disk.Grows.isThere` — what a path leads to, or
  names, is found again.
-/

namespace Disk

variable {disk before after : Disk} {location target : Location} {steps rest : List Step}

/-- The directories and links of one disk are there on another one. -/
structure Keeps (before after : Disk) : Prop where
  home : after.home = before.home
  dir : ∀ {location}, before.node? location = some .dir → after.node? location = some .dir
  link : ∀ {location target}, before.node? location = some (.link target) →
    after.node? location = some (.link target)

/-- A disk that grew kept its directories and links. -/
theorem Grows.keeps (h : before.Grows after) : before.Keeps after :=
  ⟨h.home, h.dir, (h.link_iff _ _).mpr⟩

/-! ### Following more and fewer steps -/

section Advance

variable {follow : Bool} {name : String}

/-- In a directory there is a directory. -/
theorem isDir_eq_true (h : disk.node? location = some .dir) : disk.isDir location = true :=
  decide_eq_true h

/-- A step to stay in a directory goes on from there. -/
theorem advance_stay_of_dir (hdir : disk.node? location = some .dir) :
    disk.advance follow location (.stay :: rest) = disk.advance follow location rest := by
  rw [advance_stay, if_pos (isDir_eq_true hdir)]

/-- A step up from a directory goes on from what it stands in. -/
theorem advance_up_of_dir (hdir : disk.node? location = some .dir) :
    disk.advance follow location (.up :: rest) = disk.advance follow location.tail rest := by
  rw [advance_up, if_pos (isDir_eq_true hdir)]

/-- A step down to a node that is no link goes on from there. -/
theorem advance_down_of_node {node : Node} (hdir : disk.node? location = some .dir)
    (hsize : name.utf8ByteSize ≤ nameLimit) (hnode : disk.node? (name :: location) = some node)
    (hother : ∀ path, node ≠ .link path) :
    disk.advance follow location (.down name :: rest) =
      disk.advance follow (name :: location) rest := by
  rw [advance_down, if_pos (isDir_eq_true hdir), if_neg (Nat.not_lt_of_le hsize), hnode]
  cases node with
  | file => rfl
  | link path => exact absurd rfl (hother path)
  | dir => rfl

/-- A step down to a link stops at the link, unless it is the last one and not to be
    followed. -/
theorem advance_down_of_link {path : Path} (hdir : disk.node? location = some .dir)
    (hsize : name.utf8ByteSize ≤ nameLimit)
    (hlink : disk.node? (name :: location) = some (.link path)) (hgo : rest ≠ [] ∨ follow = true) :
    disk.advance follow location (.down name :: rest) = .ok (.link location path rest) := by
  rw [advance_down, if_pos (isDir_eq_true hdir), if_neg (Nat.not_lt_of_le hsize), hlink]
  refine if_neg fun hlast => ?_
  simp only [Bool.and_eq_true, Bool.not_eq_true', List.isEmpty_iff] at hlast
  rcases hgo with hrest | hfollow
  · exact hrest hlast.1
  · rw [hlast.2] at hfollow
    cases hfollow

/-- Further steps go on from the node that the first ones found. -/
theorem advance_append_of_taken {middle : Location} {node : Node}
    (h : disk.advance true location steps = .ok (.arrived (.taken middle node))) :
    disk.advance follow location (steps ++ rest) = disk.advance follow middle rest := by
  induction steps generalizing location with
  | nil =>
    rw [advance_nil] at h
    split at h
    · cases h
      rfl
    · cases h
  | cons step steps ih =>
    obtain ⟨hdir, ⟨rfl, hgo⟩ | ⟨rfl, hgo⟩ | ⟨name, rfl, hsize, hgo⟩⟩ := advance_cons_ok h
    · rw [List.cons_append, advance_stay_of_dir hdir, ih hgo]
    · rw [List.cons_append, advance_up_of_dir hdir, ih hgo]
    rcases hgo with ⟨-, -, hplace⟩ | ⟨path, -, ⟨-, hfollow, -⟩ | ⟨-, hplace⟩⟩ |
      ⟨⟨node, hnode, hother⟩, hgo⟩
    · cases hplace
    · cases hfollow
    · cases hplace
    · rw [List.cons_append, advance_down_of_node hdir hsize hnode hother, ih hgo]

/-- Further steps come behind the link that the first ones met. -/
theorem advance_append_of_link {directory : Location} {path : Path} {more : List Step}
    (hmore : rest ≠ [] ∨ follow = true)
    (h : disk.advance true location steps = .ok (.link directory path more)) :
    disk.advance follow location (steps ++ rest) = .ok (.link directory path (more ++ rest)) := by
  induction steps generalizing location with
  | nil =>
    rw [advance_nil] at h
    split at h <;> cases h
  | cons step steps ih =>
    obtain ⟨hdir, ⟨rfl, hgo⟩ | ⟨rfl, hgo⟩ | ⟨name, rfl, hsize, hgo⟩⟩ := advance_cons_ok h
    · rw [List.cons_append, advance_stay_of_dir hdir, ih hgo]
    · rw [List.cons_append, advance_up_of_dir hdir, ih hgo]
    rcases hgo with ⟨-, -, hplace⟩ | ⟨path, hlink, ⟨-, hfollow, -⟩ | ⟨-, hplace⟩⟩ |
      ⟨⟨node, hnode, hother⟩, hgo⟩
    · cases hplace
    · cases hfollow
    · cases hplace
      exact advance_down_of_link hdir hsize hlink (hmore.imp_left fun hne hnil =>
        hne (List.append_eq_nil_iff.mp hnil).2)
    · rw [List.cons_append, advance_down_of_node hdir hsize hnode hother, ih hgo]

/-- Of steps that can be followed the first ones can be followed, to a directory or to a
    link. -/
theorem advance_of_append {hop : Hop} (hne : rest ≠ [])
    (h : disk.advance true location (steps ++ rest) = .ok hop) :
    (∃ middle, disk.advance true location steps = .ok (.arrived (.taken middle .dir))) ∨
      ∃ directory path more, disk.advance true location steps = .ok (.link directory path more) := by
  induction steps generalizing location with
  | nil =>
    obtain ⟨step, more, rfl⟩ := List.exists_cons_of_ne_nil hne
    refine .inl ⟨location, ?_⟩
    rw [advance_nil, (advance_cons_ok h).1]
  | cons step steps ih =>
    obtain ⟨hdir, ⟨rfl, hgo⟩ | ⟨rfl, hgo⟩ | ⟨name, rfl, hsize, hgo⟩⟩ := advance_cons_ok h
    · rw [advance_stay_of_dir hdir]
      exact ih hgo
    · rw [advance_up_of_dir hdir]
      exact ih hgo
    rcases hgo with ⟨-, hnil, -⟩ | ⟨path, hlink, -⟩ | ⟨⟨node, hnode, hother⟩, hgo⟩
    · exact absurd (List.append_eq_nil_iff.mp hnil).2 hne
    · exact .inr ⟨location, path, steps, advance_down_of_link hdir hsize hlink (.inr rfl)⟩
    · rw [advance_down_of_node hdir hsize hnode hother]
      exact ih hgo

/-- What is found with the last link followed is found otherwise too, or the last link is. -/
theorem advance_false_of_taken {found : Location} {node : Node}
    (h : disk.advance true location steps = .ok (.arrived (.taken found node))) :
    disk.advance false location steps = .ok (.arrived (.taken found node)) := by
  induction steps generalizing location with
  | nil => exact h
  | cons step steps ih =>
    obtain ⟨hdir, ⟨rfl, hgo⟩ | ⟨rfl, hgo⟩ | ⟨name, rfl, hsize, hgo⟩⟩ := advance_cons_ok h
    · rw [advance_stay_of_dir hdir, ih hgo]
    · rw [advance_up_of_dir hdir, ih hgo]
    rcases hgo with ⟨-, -, hplace⟩ | ⟨path, -, ⟨-, hfollow, -⟩ | ⟨-, hplace⟩⟩ |
      ⟨⟨node, hnode, hother⟩, hgo⟩
    · cases hplace
    · cases hfollow
    · cases hplace
    · rw [advance_down_of_node hdir hsize hnode hother, ih hgo]

/-- A link that is met with the last link followed is met otherwise too, or it is found. -/
theorem advance_false_of_link {directory : Location} {path : Path}
    (h : disk.advance true location steps = .ok (.link directory path rest)) :
    disk.advance false location steps = .ok (.link directory path rest) ∨
      ∃ found, disk.advance false location steps = .ok (.arrived (.taken found (.link path))) := by
  induction steps generalizing location with
  | nil =>
    rw [advance_nil] at h
    split at h <;> cases h
  | cons step steps ih =>
    obtain ⟨hdir, ⟨rfl, hgo⟩ | ⟨rfl, hgo⟩ | ⟨name, rfl, hsize, hgo⟩⟩ := advance_cons_ok h
    · rw [advance_stay_of_dir hdir]
      exact ih hgo
    · rw [advance_up_of_dir hdir]
      exact ih hgo
    rcases hgo with ⟨-, -, hplace⟩ | ⟨path, hlink, ⟨-, hfollow, -⟩ | ⟨-, hplace⟩⟩ |
      ⟨⟨node, hnode, hother⟩, hgo⟩
    · cases hplace
    · cases hfollow
    · cases hplace
      by_cases hrest : rest = []
      · subst hrest
        refine .inr ⟨name :: directory, ?_⟩
        rw [advance_down, if_pos (isDir_eq_true hdir), if_neg (Nat.not_lt_of_le hsize), hlink]
        rfl
      · exact .inl (advance_down_of_link hdir hsize hlink (.inl hrest))
    · rw [advance_down_of_node hdir hsize hnode hother]
      exact ih hgo

/-! ### Following steps on a disk that kept its directories -/

/-- On a disk that kept its directories steps still lead to the end of the way, if there is
    something now that is no new link. A link at the end is followed again as it was, and where
    there was none it does not matter. -/
theorem Keeps.advance_arrived (h : before.Keeps after) {again : Bool} {place : Place} {node : Node}
    (hend : again = follow ∨ ∀ path, place ≠ .taken place.location (.link path))
    (hnow : after.node? place.location = some node)
    (hlink : ∀ path, node = .link path → before.node? place.location = some (.link path))
    (hadvance : before.advance follow location steps = .ok (.arrived place)) :
    after.advance again location steps = .ok (.arrived (.taken place.location node)) := by
  induction steps generalizing location with
  | nil =>
    rw [advance_nil] at hadvance
    split at hadvance
    · cases hadvance
      have hhere : after.node? location = some node := hnow
      rw [advance_nil, hhere]
      rfl
    · cases hadvance
  | cons step steps ih =>
    obtain ⟨hdir, ⟨rfl, hgo⟩ | ⟨rfl, hgo⟩ | ⟨name, rfl, hsize, hgo⟩⟩ := advance_cons_ok hadvance
    · rw [advance_stay_of_dir (h.dir hdir), ih hgo]
    · rw [advance_up_of_dir (h.dir hdir), ih hgo]
    -- A step down comes to a free end, to a link at the end, to a link followed, or goes on.
    rcases hgo with ⟨hnone, rfl, hplace⟩ | ⟨path, hpath, ⟨rfl, hfollow, hplace⟩ | ⟨-, hplace⟩⟩ |
      ⟨⟨old, hold, hother⟩, hgo⟩
    · cases hplace
      have hhere : after.node? (name :: location) = some node := hnow
      have hnolink : ∀ path, node ≠ .link path := fun path hpath => by
        rw [Place.location, hnone] at hlink
        cases hlink path hpath
      rw [advance_down_of_node (h.dir hdir) hsize hhere hnolink, advance_nil, hhere]
      rfl
    · cases hplace
      -- The way ends at a link itself only if that is not followed either time.
      rcases hend with rfl | hend
      · have hhere : after.node? (name :: location) = some node := hnow
        have hkept := h.link hpath
        rw [hhere] at hkept
        cases Option.some.inj hkept
        rw [advance_down, if_pos (isDir_eq_true (h.dir hdir)), if_neg (Nat.not_lt_of_le hsize),
          hhere, hfollow]
        rfl
      · exact absurd rfl (hend path)
    · cases hplace
    cases steps with
    | nil =>
      rw [advance_nil, hold] at hgo
      cases hgo
      have hhere : after.node? (name :: location) = some node := hnow
      have hnolink : ∀ path, node ≠ .link path := fun path hpath => by
        rw [Place.location, hold] at hlink
        exact hother path (Option.some.inj (hlink path hpath))
      rw [advance_down_of_node (h.dir hdir) hsize hhere hnolink, advance_nil, hhere]
      rfl
    | cons step steps =>
      -- Only the end of the way may be new: what is passed by before it is a directory.
      have hpass : before.node? (name :: location) = some .dir := (advance_cons_ok hgo).1
      rw [advance_down_of_node (h.dir hdir) hsize (h.dir hpass) (by simp), ih hgo]

/-- On a disk that kept its directories and links the same link is met. -/
theorem Keeps.advance_link (h : before.Keeps after) {again : Bool}
    (hagain : follow = true → again = true) {directory : Location} {path : Path}
    (hadvance : before.advance follow location steps = .ok (.link directory path rest)) :
    after.advance again location steps = .ok (.link directory path rest) := by
  induction steps generalizing location with
  | nil =>
    rw [advance_nil] at hadvance
    split at hadvance <;> cases hadvance
  | cons step steps ih =>
    obtain ⟨hdir, ⟨rfl, hgo⟩ | ⟨rfl, hgo⟩ | ⟨name, rfl, hsize, hgo⟩⟩ := advance_cons_ok hadvance
    · rw [advance_stay_of_dir (h.dir hdir), ih hgo]
    · rw [advance_up_of_dir (h.dir hdir), ih hgo]
    rcases hgo with ⟨-, -, hplace⟩ | ⟨path, hlink, ⟨-, -, hplace⟩ | ⟨hmore, hplace⟩⟩ |
      ⟨⟨node, hnode, hother⟩, hgo⟩
    · cases hplace
    · cases hplace
    · cases hplace
      exact advance_down_of_link (h.dir hdir) hsize (h.link hlink) (hmore.imp_right hagain)
    · -- Steps to a link pass by directories only, too.
      have hpass : node = .dir := by
        cases steps with
        | nil =>
          rw [advance_nil, hnode] at hgo
          cases hgo
        | cons step steps =>
          have hbelow := (advance_cons_ok hgo).1
          rw [hnode] at hbelow
          exact Option.some.inj hbelow
      rw [hpass] at hnode
      rw [advance_down_of_node (h.dir hdir) hsize (h.dir hnode) (by simp), ih hgo]

/-! ### Links on the way -/

variable {links : Nat}

/-- Steps that end before the first link are followed at once. -/
theorem travel_of_arrived {place : Place}
    (h : disk.advance follow location steps = .ok (.arrived place)) :
    disk.travel follow links location steps = .ok place := by
  cases links <;> rw [travel, h]

/-- Steps that meet a link go on from its target. -/
theorem travel_of_link {directory : Location} {path : Path}
    (h : disk.advance follow location steps = .ok (.link directory path rest)) :
    disk.travel follow (links + 1) location steps =
      disk.travel follow links (path.origin directory) (path.steps ++ rest) := by
  rw [travel, h]

/-- Of steps that can be followed the first ones lead to a directory. -/
theorem travel_of_append {place : Place} (hne : rest ≠ [])
    (h : disk.travel true links location (steps ++ rest) = .ok place) :
    ∃ middle, disk.travel true links location steps = .ok (.taken middle .dir) := by
  -- The steps of the induction are all steps, of which the first ones change from link to link.
  generalize hall : steps ++ rest = all at h
  revert steps
  refine travel_induction (motive := fun links location all => ∀ {steps}, steps ++ rest = all →
    ∃ middle, disk.travel true links location steps = .ok (.taken middle .dir)) ?_ ?_ h
  · rintro links location _ hadvance steps rfl
    obtain ⟨middle, hfirst⟩ | ⟨directory, path, more, hfirst⟩ := advance_of_append hne hadvance
    · exact ⟨middle, travel_of_arrived hfirst⟩
    · rw [advance_append_of_link (.inl hne) hfirst] at hadvance
      cases hadvance
  · rintro links location _ directory path more hadvance ih steps rfl
    obtain ⟨middle, hfirst⟩ | ⟨directory, path, more, hfirst⟩ := advance_of_append hne hadvance
    · exact ⟨middle, travel_of_arrived hfirst⟩
    · rw [advance_append_of_link (.inl hne) hfirst] at hadvance
      cases hadvance
      rw [travel_of_link hfirst]
      exact ih (List.append_assoc ..)

/-- In a directory one can stay. -/
theorem advance_stays (hdir : disk.node? location = some .dir) (count : Nat) :
    disk.advance true location (List.replicate count .stay) =
      .ok (.arrived (.taken location .dir)) := by
  induction count with
  | zero => rw [List.replicate_zero, advance_nil, hdir]
  | succ count ih => rw [List.replicate_succ, advance_stay_of_dir hdir, ih]

/-- **Further steps.** Further steps go on from the node that the first ones found. -/
theorem travel_append {middle : Location} {node : Node} {result : Except IoError Place}
    (hmore : rest ≠ [] ∨ follow = true)
    (h : disk.travel true links location steps = .ok (.taken middle node))
    (hrest : disk.advance follow middle rest = result.map .arrived) :
    disk.travel follow links location (steps ++ rest) = result := by
  refine travel_induction (motive := fun links location steps =>
    disk.travel follow links location (steps ++ rest) = result) ?_ ?_ h
  · intro links location steps hadvance
    rw [← advance_append_of_taken hadvance] at hrest
    cases result with
    | error e => cases links <;> rw [travel, hrest] <;> rfl
    | ok place => exact travel_of_arrived hrest
  · intro links location steps directory path more hadvance ih
    rw [travel_of_link (advance_append_of_link hmore hadvance), ← List.append_assoc]
    exact ih

/-- In a directory that was found one can stay. -/
theorem travel_append_stays {found : Location}
    (h : disk.travel true links location steps = .ok (.taken found .dir)) (count : Nat) :
    disk.travel true links location (steps ++ List.replicate count .stay) =
      .ok (.taken found .dir) := by
  have hdir : disk.node? found = some .dir := node?_of_travel_taken h
  exact travel_append (.inr rfl) h (advance_stays hdir count)

/-- **Staying.** Steps to stay at the end do not matter for finding a directory. -/
theorem travel_stays_iff {found : Location} (count other : Nat) :
    disk.travel true links location (steps ++ List.replicate count .stay) =
        .ok (.taken found .dir) ↔
      disk.travel true links location (steps ++ List.replicate other .stay) =
        .ok (.taken found .dir) := by
  -- It is enough to compare with no step to stay at all.
  suffices hbare : ∀ count, disk.travel true links location
      (steps ++ List.replicate count .stay) = .ok (.taken found .dir) ↔
      disk.travel true links location steps = .ok (.taken found .dir) by
    rw [hbare count, hbare other]
  intro count
  refine ⟨fun h => ?_, fun h => travel_append_stays h count⟩
  by_cases hzero : count = 0
  · rwa [hzero, List.replicate_zero, List.append_nil] at h
  · -- The steps before lead to a directory, which then is the one that was found.
    obtain ⟨middle, hmiddle⟩ := travel_of_append (by simpa using hzero) h
    rw [travel_append_stays hmiddle] at h
    cases h
    exact hmiddle

/-- What is found with the last link followed is there also if the last link is not followed. -/
theorem travel_false_of_taken {found : Location} {node : Node}
    (h : disk.travel true links location steps = .ok (.taken found node)) :
    ∃ place other, disk.travel false links location steps = .ok (.taken place other) := by
  refine travel_induction (motive := fun links location steps => ∃ place other,
    disk.travel false links location steps = .ok (.taken place other)) ?_ ?_ h
  · intro links location steps hadvance
    exact ⟨_, _, travel_of_arrived (advance_false_of_taken hadvance)⟩
  · intro links location steps directory path rest hadvance ih
    obtain hlink | ⟨place, hplace⟩ := advance_false_of_link hadvance
    · rwa [travel_of_link hlink]
    · exact ⟨_, _, travel_of_arrived hplace⟩

/-- **Kept directories.** On a disk that kept its directories and links steps still lead to the
    end of the way, if there is something now that is no new link. A link at the end is followed
    again as it was, and where there was none it may be. -/
theorem Keeps.travel (h : before.Keeps after) {again : Bool} {place : Place} {node : Node}
    (hend : again = follow ∨
      again = true ∧ ∀ path, place ≠ .taken place.location (.link path))
    (hnow : after.node? place.location = some node)
    (hlink : ∀ path, node = .link path → before.node? place.location = some (.link path))
    (htravel : before.travel follow links location steps = .ok place) :
    after.travel again links location steps = .ok (.taken place.location node) := by
  have hagain : follow = true → again = true := by
    rcases hend with rfl | ⟨htrue, -⟩
    · exact id
    · exact fun _ => htrue
  refine travel_induction (motive := fun links location steps =>
    after.travel again links location steps = .ok (.taken place.location node)) ?_ ?_ htravel
  · intro links location steps hadvance
    exact travel_of_arrived (h.advance_arrived (hend.imp_right And.right) hnow hlink hadvance)
  · intro links location steps directory path rest hadvance ih
    rwa [travel_of_link (h.advance_link hagain hadvance)]

end Advance

/-! ### Paths -/

/-- The status of a path is the end of its steps. -/
theorem status_ok_iff_travel {path : Path} {node : Node} :
    disk.status path = .ok (location, node) ↔ path.fault? = none ∧
      disk.travel true linkLimit (path.origin disk.home) path.steps = .ok (.taken location node) := by
  rw [status_ok_iff, locate_ok_iff]

/-- What a path leads to is found again on a disk that kept its directories and links, if there
    is something now that is no new link. -/
theorem Keeps.status (h : before.Keeps after) {path : Path} {old node : Node}
    (hstatus : before.status path = .ok (location, old))
    (hnow : after.node? location = some node)
    (hlink : ∀ target, node = .link target → before.node? location = some (.link target)) :
    after.status path = .ok (location, node) := by
  rw [status_ok_iff_travel] at hstatus ⊢
  rw [h.home]
  have hplace : after.node? (Place.taken location old).location = some node := hnow
  exact ⟨hstatus.1, h.travel (.inl rfl) hplace hlink hstatus.2⟩

/-- What a path names is found again on such a disk. -/
theorem Keeps.linkStatus (h : before.Keeps after) {path : Path} {old node : Node}
    (hstatus : before.linkStatus path = .ok (location, old))
    (hnow : after.node? location = some node)
    (hlink : ∀ target, node = .link target → before.node? location = some (.link target)) :
    after.linkStatus path = .ok (location, node) := by
  rw [linkStatus_ok_iff, locate_ok_iff] at hstatus ⊢
  rw [h.home]
  have hplace : after.node? (Place.taken location old).location = some node := hnow
  exact ⟨hstatus.1, h.travel (.inl rfl) hplace hlink hstatus.2⟩

/-- A node that is no link is found with the last link followed as it is without. -/
theorem status_of_linkStatus {path : Path} {node : Node} (hother : ∀ target, node ≠ .link target)
    (h : disk.linkStatus path = .ok (location, node)) : disk.status path = .ok (location, node) := by
  rw [linkStatus_ok_iff, locate_ok_iff] at h
  have hnode : disk.node? (Place.taken location node).location = some node :=
    node?_of_travel_taken h.2
  refine status_ok_iff_travel.mpr ⟨h.1, (Grows.refl disk).keeps.travel (.inr ⟨rfl, ?_⟩) hnode
    (fun target hlink => absurd hlink (hother target)) h.2⟩
  rintro target hplace
  cases hplace
  exact hother target rfl

/-- A directory that a path leads to is found again. -/
theorem Keeps.status_dir (h : before.Keeps after) {path : Path}
    (hstatus : before.status path = .ok (location, .dir)) :
    after.status path = .ok (location, .dir) :=
  h.status hstatus (h.dir (pathLeads_of_status hstatus).2) fun _ hnode => by cases hnode

/-- What is there is there on a disk that grew. -/
theorem Grows.isThere (h : before.Grows after) {path : Path} (hthere : before.isThere path = true) :
    after.isThere path = true := by
  obtain ⟨location, old, hstatus⟩ := isThere_iff.mp hthere
  obtain ⟨node, hnode⟩ := h.exists_node (pathLeads_of_status hstatus).2
  refine isThere_iff.mpr ⟨location, node, h.keeps.status hstatus hnode fun target hlink => ?_⟩
  rw [hlink, h.link_iff] at hnode
  exact hnode

end Disk

end PageLoom
