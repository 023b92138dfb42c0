import PageLoom.Proofs.Site.CopyDepth

namespace PageLoom

/-!
# What a copy visits

A copy that succeeds followed every link that it met, and so it went all ways through its source.

* `VisitedBelow` — the copy went all ways below some names;
* `copyChildren_visits`, `copyEntry_visits` — what was copied was visited;
* `VisitedBelow.reached` — whatever a path below the source leads to was reached.
-/

variable {start disk later : Disk} {order : ListingOrder} {source target path : Path}
  {base location place : Location} {names : List String} {name : String} {above : List Ancestor}
  {node : Node} {session after : Session} {depth count : Nat}

/-- Entries that are copied are those that are listed. -/
theorem copyChildren_ok {relative : String}
    (h : (copyChildren order target depth above path relative).run session = .ok count after) :
    ∃ entries counts, session.disk.list path = .ok entries ∧
      ((order.arrange path entries).mapM fun entry =>
        copyWithin order target depth above (path.join entry.1)
          (entryBelow relative entry.1)).run session = .ok counts after ∧
      count = counts.foldr (· + ·) 0 := by
  rw [copyChildren] at h
  obtain ⟨entries, listed, hlook, hrest⟩ := Action.run_bind_ok_iff.mp h
  obtain ⟨hlist, hlisted⟩ := Action.look_ok_iff.mp hlook
  obtain ⟨counts, _, hloop, hsum⟩ := Action.run_bind_ok_iff.mp hrest
  cases hsum
  cases hlisted
  exact ⟨entries, counts, hlist, hloop, rfl⟩

/-! ### Visits -/

/-- The copy went all ways below the names: each directory that is reached there has its copy, and
    each of its entries was followed. -/
def VisitedBelow (start : Disk) (source : Path) (base : Location) (names : List String)
    (disk : Disk) : Prop :=
  ∀ more above location, Reached start source (names ++ more) above location .dir →
    disk.node? ((names ++ more).reverse ++ base) = some .dir ∧
    ∀ name node, start.node? (name :: location) = some node →
      ∃ place found, Reached start source (names ++ more ++ [name])
        (⟨location, source.joinAll (names ++ more)⟩ :: above) place found

/-- What was visited stays visited. -/
theorem VisitedBelow.grows (h : VisitedBelow start source base names disk)
    (hgrows : disk.Grows later) : VisitedBelow start source base names later :=
  fun more above location hreached =>
    ⟨hgrows.dir (h more above location hreached).1, (h more above location hreached).2⟩

/-- Below what is no directory there is nothing to visit. -/
theorem visitedBelow_of_ne_dir (h : Reached start source names above location node)
    (hne : node ≠ .dir) : VisitedBelow start source base names disk := by
  intro more others place hreached
  refine absurd ?_ hne
  cases more with
  | nil =>
    rw [List.append_nil] at hreached
    exact (h.unique hreached).2.2
  | cons name more =>
    obtain ⟨before, up, entry, hup, -⟩ := hreached.of_append
    exact (h.unique hup).2.2

section Copying

variable (wf : start.WellFormed) (hapart : ApartFromCopy start source target base)
  (hhome : start.node? start.home = some .dir)

include wf hapart hhome

/-- If the copies of all entries visit what is below them, then the copy of a directory visits what
    is below it. -/
theorem copyChildren_visits
    (h : CopyingIn start source target base names above location session.disk)
    (hcopy : ∀ (name : String) (node : Node) (middle later : Session) (count : Nat),
      start.node? (name :: location) = some node →
      CopyingIn start source target base names above location middle.disk →
      (copyWithin order target depth (⟨location, source.joinAll names⟩ :: above)
        (source.joinAll (names ++ [name])) (relativeText (names ++ [name]))).run middle =
          .ok count later →
      (∃ place found, Reached start source (names ++ [name])
        (⟨location, source.joinAll names⟩ :: above) place found) ∧
        VisitedBelow start source base (names ++ [name]) later.disk)
    (hrun : (copyChildren order target depth (⟨location, source.joinAll names⟩ :: above)
      (source.joinAll names) (relativeText names)).run session = .ok count after) :
    VisitedBelow start source base names after.disk := by
  obtain ⟨entries, counts, hlist, hloop, -⟩ := copyChildren_ok hrun
  have hdir : session.disk.node? (names.reverse ++ base) = some .dir := by
    rcases h.stands with ⟨-, hplace⟩ | hstatus
    · rw [hplace, h.into.grows.home]
      exact h.into.grows.dir hhome
    · exact (Disk.pathLeads_of_status hstatus).2
  -- Each entry that the directory had before the copy was copied in some round.
  obtain ⟨hgrows, hrounds⟩ := Action.exists_round_of_mapM
    (CopyingIn start source target base names above location) (fun entry hentry session hnow => by
      have hname := wf.isName ((h.mem_arrange_iff wf hapart hlist).mp hentry)
      rw [← relativeText_concat]
      exact ⟨CopyingIn.round wf hapart hname _ _ _ session hnow,
        (hnow.changes wf hapart order hname _ _ _).grows⟩) h hloop
  have hvisits : ∀ name node, start.node? (name :: location) = some node →
      (∃ place found, Reached start source (names ++ [name])
        (⟨location, source.joinAll names⟩ :: above) place found) ∧
        VisitedBelow start source base (names ++ [name]) after.disk := by
    intro name node hentry
    obtain ⟨middle, count, later, hnow, hround, hlater⟩ :=
      hrounds (name, node) ((h.mem_arrange_iff wf hapart hlist).mpr hentry)
    rw [← Path.joinAll_concat, ← relativeText_concat] at hround
    obtain ⟨hreached, hbelow⟩ := hcopy name node middle later count hentry hnow hround
    exact ⟨hreached, hbelow.grows hlater⟩
  intro more others place hreached
  cases more with
  | nil =>
    rw [List.append_nil] at hreached ⊢
    obtain ⟨rfl, rfl, -⟩ := h.reached.unique hreached
    exact ⟨hgrows.dir hdir, fun name node hentry => (hvisits name node hentry).1⟩
  | cons name more =>
    obtain ⟨before, up, entry, hup, hentry⟩ := hreached.of_append
    obtain ⟨rfl, rfl, -⟩ := h.reached.unique hup
    rw [List.append_cons] at hreached ⊢
    exact (hvisits name entry hentry).2 more others place hreached

/-- **Visits.** If the copy of an entry succeeds, then the walk followed it, and went all ways below
    it. -/
theorem copyEntry_visits
    (h : CopyingIn start source target base names above location session.disk)
    (hentry : start.node? (name :: location) = some node)
    (hrun : (copyWithin order target depth (⟨location, source.joinAll names⟩ :: above)
      (source.joinAll (names ++ [name])) (relativeText (names ++ [name]))).run session =
        .ok count after) :
    (∃ place found, Reached start source (names ++ [name])
      (⟨location, source.joinAll names⟩ :: above) place found) ∧
      VisitedBelow start source base (names ++ [name]) after.disk := by
  induction depth generalizing names name above location node session count after with
  | zero => cases hrun
  | succ depth ih =>
    rw [copyWithin] at hrun
    obtain ⟨⟨place, found⟩, _, hlook, hrun⟩ := Action.run_bind_ok_iff.mp hrun
    obtain ⟨hfollow, rfl⟩ := Action.look_ok_iff.mp hlook
    have hnames : ∀ other ∈ names ++ [name], IsName other :=
      List.forall_mem_append.mpr ⟨h.reached.isName wf, by simpa using wf.isName hentry⟩
    have hreached : Reached start source (names ++ [name])
        (⟨location, source.joinAll names⟩ :: above) place found :=
      .entry h.reached hentry ((h.into.followEntry_eq hapart hnames _).symm.trans hfollow)
    refine ⟨⟨place, found, hreached⟩, ?_⟩
    cases found with
    | file bytes => exact visitedBelow_of_ne_dir hreached (by simp)
    | link path => exact visitedBelow_of_ne_dir hreached (by simp)
    | dir =>
      obtain ⟨_, _, hmake, hrun⟩ := Action.run_bind_ok_iff.mp hrun
      obtain ⟨hmade, rfl⟩ := Action.makeDirs_ok_iff.mp hmake
      exact copyChildren_visits wf hapart hhome (h.entry wf hapart hentry hfollow hmade)
        (fun other _ middle later count hother hnow hround => ih hnow hother hround) hrun

end Copying

/-- When all ways were gone, whatever a path below the source leads to was reached. -/
theorem VisitedBelow.reached (h : VisitedBelow start source base [] disk) (wf : start.WellFormed)
    (hroot : Reached start source [] [] location .dir) (hnames : ∀ name ∈ names, IsName name)
    (hleads : start.PathLeads (source.joinAll names) place) (hnode : start.node? place = some node) :
    ∃ above, Reached start source names above place node := by
  induction names using List.reverseRecOn generalizing place node with
  | nil =>
    cases hroot.pathLeads.1.unique hleads
    cases hroot.pathLeads.2.symm.trans hnode
    exact ⟨[], hroot⟩
  | append_singleton names name ih =>
    obtain ⟨hnames, hname⟩ := List.forall_mem_append.mp hnames
    replace hname := hname name (List.mem_singleton_self name)
    have hjoin := hleads
    rw [Path.joinAll_concat] at hjoin
    obtain ⟨up, hup, hdown⟩ := (Disk.pathLeads_join hname).mp hjoin
    -- The last name is that of an entry, or nothing would stand where it leads.
    obtain ⟨entry, hentry⟩ : ∃ entry, start.node? (name :: up) = some entry := by
      by_contra hnone
      rw [not_exists, ← Option.eq_none_iff_forall_ne_some] at hnone
      rw [hdown.eq_of_down (by simp [hnone]), hnone] at hnode
      cases hnode
    obtain ⟨above, hreached⟩ := ih hnames hup (wf.parent hentry)
    obtain ⟨place', found, hlast⟩ := (h names above up hreached).2 name entry hentry
    cases hlast.pathLeads.1.unique hleads
    cases hlast.pathLeads.2.symm.trans hnode
    exact ⟨_, hlast⟩

end PageLoom
