import PageLoom.Proofs.Disk.PathLength
import PageLoom.Proofs.Site.CopySource
import PageLoom.Proofs.Site.Stripped

namespace PageLoom

/-!
# Copies end

A copy goes down with the walk through its source. No walk goes deeper than the disk allows, since
it does not enter a directory that it is in, so that a bound on its depth that is larger than that
makes no difference. Nor does one that is as large as the longest path.

* `Ample` — a depth that is enough below an entry;
* `copyEntry_tooDeep` — an entry that is too deep is too deep for every bound;
* `copyChildren_congr` — directories are copied alike if their entries are;
* `copyTree_ample` — all bounds that are large enough give the same copy.
-/

/-- As many levels are enough for the copy of what the names lead to: no path is longer, or no walk
    is deeper. -/
def Ample (disk : Disk) (source : Path) (names : List String) (depth : Nat) : Prop :=
  pathLimit ≤ (source.joinAll names).text.utf8ByteSize + depth ∨
    disk.walkBound < names.length + depth

/-- Copies the entries of a directory into the directory of its copy. -/
def copyChildren (order : ListingOrder) (target : Path) (depth : Nat) (above : List Ancestor)
    (path : Path) (relative : String) : Action CopyError Nat := do
  let entries ← Action.look (.walk path) (·.list path)
  let counts ← (order.arrange path entries).mapM fun entry =>
    copyWithin order target depth above (path.join entry.1) (entryBelow relative entry.1)
  return counts.foldr (· + ·) 0

variable {start : Disk} {order : ListingOrder} {source target : Path} {base location : Location}
  {names : List String} {name : String} {above : List Ancestor} {node : Node} {session : Session}
  {depth depth' : Nat}

/-- What is enough for a directory is, less one, enough for its entries. -/
theorem Ample.entry (h : Ample start source names (depth + 1)) (hname : IsName name) :
    Ample start source (names ++ [name]) depth := by
  rcases h with h | h
  · have hlonger := Disk.size_lt_join (source.joinAll names) hname
    rw [← Path.joinAll_concat] at hlonger
    exact .inl (by omega)
  · refine .inr ?_
    rw [List.length_append, List.length_singleton]
    omega

section Copying

variable (wf : start.WellFormed) (hapart : ApartFromCopy start source target base)

include wf

/-- **Too deep.** An entry for which no level at all is enough has too long a path: the walk never
    gets so deep that it would have been cut off. -/
theorem copyEntry_tooDeep (hfits : start.NamesFit)
    (h : CopyingIn start source target base names above location session.disk)
    (hentry : start.node? (name :: location) = some node)
    (hample : Ample start source (names ++ [name]) 0) (depth : Nat) :
    (copyWithin order target depth (⟨location, source.joinAll names⟩ :: above)
        (source.joinAll (names ++ [name])) (relativeText (names ++ [name]))).run session =
      .error (.walk (source.joinAll (names ++ [name])) .nameTooLong) session := by
  cases depth with
  | zero => rfl
  | succ depth =>
    have hdepth := h.reached.length_lt wf
    have hsize : pathLimit ≤ ((source.joinAll names).join name).text.utf8ByteSize := by
      rcases hample with hsize | hdeep
      · rwa [← Path.joinAll_concat]
      · rw [List.length_append, List.length_singleton] at hdeep
        omega
    have hfault := Disk.fault?_join (wf.isName hentry) (hfits.of_node? hentry).2
      (Disk.size_lt_of_status h.reached.status).2.1
    rw [if_neg (Nat.not_lt.mpr hsize), ← Path.joinAll_concat] at hfault
    have hfollow : followEntry (⟨location, source.joinAll names⟩ :: above)
        (source.joinAll (names ++ [name])) session.disk =
          .error (.walk (source.joinAll (names ++ [name])) .nameTooLong) := by
      rw [followEntry, Disk.linkStatus, Disk.locate, hfault]
      rfl
    rw [copyWithin]
    exact Action.run_bind_error_iff.mpr (.inl (Action.look_error_iff.mpr ⟨_, hfollow, rfl, rfl⟩))

include hapart

/-- Directories are copied alike if their entries are. -/
theorem copyChildren_congr
    (h : CopyingIn start source target base names above location session.disk)
    (hcopy : ∀ (name : String) (node : Node) (session : Session),
      start.node? (name :: location) = some node →
      CopyingIn start source target base names above location session.disk →
      (copyWithin order target depth (⟨location, source.joinAll names⟩ :: above)
          (source.joinAll (names ++ [name])) (relativeText (names ++ [name]))).run session =
        (copyWithin order target depth' (⟨location, source.joinAll names⟩ :: above)
          (source.joinAll (names ++ [name])) (relativeText (names ++ [name]))).run session) :
    (copyChildren order target depth (⟨location, source.joinAll names⟩ :: above)
        (source.joinAll names) (relativeText names)).run session =
      (copyChildren order target depth' (⟨location, source.joinAll names⟩ :: above)
        (source.joinAll names) (relativeText names)).run session := by
  refine Action.run_bind_congr rfl fun entries _ hlook => ?_
  obtain ⟨hlist, rfl⟩ := Action.look_ok_iff.mp hlook
  have hentries : ∀ entry ∈ order.arrange (source.joinAll names) entries,
      start.node? (entry.1 :: location) = some entry.2 :=
    fun entry => (h.mem_arrange_iff wf hapart hlist).mp
  refine Action.run_bind_congr ?_ fun _ _ _ => rfl
  refine Action.run_mapM_congr (CopyingIn start source target base names above location) h
    (fun entry hentry => ?_) fun entry hentry session hnow => ?_
  · rw [← relativeText_concat]
    exact CopyingIn.round wf hapart (wf.isName (hentries entry hentry)) _ _ _
  · rw [← Path.joinAll_concat, ← relativeText_concat]
    exact hcopy _ _ _ (hentries entry hentry) hnow

/-- **Entries.** Two bounds that are both enough give the same copy of an entry. -/
theorem copyEntry_ample (hfits : start.NamesFit)
    (h : CopyingIn start source target base names above location session.disk)
    (hentry : start.node? (name :: location) = some node)
    (hample : Ample start source (names ++ [name]) depth)
    (hample' : Ample start source (names ++ [name]) depth') :
    (copyWithin order target depth (⟨location, source.joinAll names⟩ :: above)
        (source.joinAll (names ++ [name])) (relativeText (names ++ [name]))).run session =
      (copyWithin order target depth' (⟨location, source.joinAll names⟩ :: above)
        (source.joinAll (names ++ [name])) (relativeText (names ++ [name]))).run session := by
  induction depth generalizing depth' names name above location node session with
  | zero =>
    rw [copyEntry_tooDeep wf hfits h hentry hample, copyEntry_tooDeep wf hfits h hentry hample]
  | succ depth ih =>
    cases depth' with
    | zero =>
      rw [copyEntry_tooDeep wf hfits h hentry hample', copyEntry_tooDeep wf hfits h hentry hample']
    | succ depth' =>
      rw [copyWithin, copyWithin]
      refine Action.run_bind_congr rfl fun found now hfound => ?_
      obtain ⟨hfollow, rfl⟩ := Action.look_ok_iff.mp hfound
      obtain ⟨place, found⟩ := found
      cases found with
      | file bytes => rfl
      | link path => rfl
      | dir =>
        refine Action.run_bind_congr rfl fun _ made hmake => ?_
        obtain ⟨hmade, rfl⟩ := Action.makeDirs_ok_iff.mp hmake
        refine copyChildren_congr wf hapart (h.entry wf hapart hentry hfollow hmade)
          fun other _ session hother hnow => ?_
        have hname := wf.isName hother
        exact ih hnow hother (hample.entry hname) (hample'.entry hname)

end Copying

/-- Two bounds that are both enough give the same copy of a tree. -/
theorem copyRoot_ample (wf : session.disk.WellFormed) (hfits : session.disk.NamesFit)
    (hapart : ∀ base, session.disk.PathLeads target base →
      ApartFromCopy session.disk source target base)
    (hample : Ample session.disk source [] (depth + 1))
    (hample' : Ample session.disk source [] (depth' + 1)) :
    (copyWithin order target (depth + 1) [] source "").run session =
      (copyWithin order target (depth' + 1) [] source "").run session := by
  rw [copyWithin, copyWithin]
  refine Action.run_bind_congr rfl fun found now hfound => ?_
  obtain ⟨hfollow, rfl⟩ := Action.look_ok_iff.mp hfound
  obtain ⟨place, found⟩ := found
  cases found with
  | file bytes => rfl
  | link path => rfl
  | dir =>
    refine Action.run_bind_congr rfl fun _ made hmake => ?_
    obtain ⟨hmade, rfl⟩ := Action.makeDirs_ok_iff.mp hmake
    obtain ⟨base, hbase, hcopying⟩ := copyingIn_root hfollow hmade
    -- The source is what no names lead to.
    show (copyChildren order target depth [⟨place, source.joinAll []⟩] (source.joinAll [])
        (relativeText [])).run _ =
      (copyChildren order target depth' [⟨place, source.joinAll []⟩] (source.joinAll [])
        (relativeText [])).run _
    refine copyChildren_congr wf (hapart base hbase) hcopying fun name _ session hentry hnow => ?_
    have hname := wf.isName hentry
    exact copyEntry_ample wf (hapart base hbase) hfits hnow hentry (hample.entry hname)
      (hample'.entry hname)

/-- **Copies end.** A copy that may go deeper than any walk on the disk does just what the copy of the
    tree does. -/
theorem copyTree_ample (wf : session.disk.WellFormed) (hfits : session.disk.NamesFit)
    (hapart : ∀ base, session.disk.PathLeads target base →
      ApartFromCopy session.disk source target base)
    (hdepth : session.disk.walkBound < depth) :
    (copyWithin order target depth [] source "").run session =
      (copyTree order source target).run session := by
  obtain ⟨depth, rfl⟩ := Nat.exists_eq_add_one_of_ne_zero (Nat.ne_zero_of_lt hdepth)
  have hpath : Ample session.disk source [] (pathLimit + 1) := .inl (by omega)
  exact copyRoot_ample wf hfits hapart (.inr (by simpa using hdepth)) hpath

end PageLoom
