import PageLoom.Proofs.Disk.Below
import PageLoom.Proofs.Site.Copy

namespace PageLoom

/-!
# Where copies go

The place of an entry in a copy is found by taking the path of the source off the path of the entry.
Were that not possible, the whole path would be taken, and the copy might leave its directory. It
always is possible: the path of an entry is that of the source with names behind it.

* `Path.parts`, `Path.behind?` — what stands in a path behind another one;
* `Path.behind?_joinAll` — behind a path that was continued by names the names stand;
* `copyStripped` — the copy of a tree by that rule;
* `copyStripped_run` — it does what `copyTree` does.
-/

namespace Path

/-- The segments of a path that say something: the first one, and all that name something or step
    up. -/
def parts (path : Path) : List (List Char) :=
  match path.text.toList, segments path.text.toList with
  | [], _ | _, [] => []
  | _, first :: more => first :: more.filter fun part => !isSilent part

/-- The segments that stand behind the given ones, from the next one on that says something. -/
def segmentsBehind? : List (List Char) → List (List Char) → Option (List (List Char))
  | rest, [] => some rest
  | [], _ :: _ => none
  | part :: rest, wanted :: more =>
    if part = wanted then segmentsBehind? (rest.dropWhile isSilent) more else none

/-- What stands in a path behind another one. -/
def behind? (path base : Path) : Option Path :=
  let all := if path.text.toList = [] then [] else segments path.text.toList
  match segmentsBehind? all base.parts with
  | none => none
  | some rest =>
    match trimSegments rest with
    | [[]] => some ⟨"/"⟩
    | rest => some (ofSegments rest)

/-- Behind the segments that say something the others stand. -/
theorem segmentsBehind?_filter (more rest : List (List Char)) :
    segmentsBehind? ((more ++ rest).dropWhile isSilent) (more.filter fun part => !isSilent part) =
      some (rest.dropWhile isSilent) := by
  induction more with
  | nil => rfl
  | cons part more ih =>
    by_cases hsilent : isSilent part = true
    · rw [List.cons_append, List.dropWhile_cons_of_pos hsilent,
        List.filter_cons_of_neg (by simp [hsilent]), ih]
    · rw [List.cons_append, List.dropWhile_cons_of_neg hsilent,
        List.filter_cons_of_pos (by simp [hsilent]), segmentsBehind?, if_pos rfl, ih]

/-- The segments of a path that ends in a name come before the next name. -/
theorem front_join (path : Path) {name : String} (h : IsName name) :
    (path.join name).front = path.front ++ [name.toList] := by
  have hlast : ¬ (path.join name).text.toList.getLast? = some '/' := by
    rw [path.join_eq_lead (isTight_of_isName h).1, String.toList_append,
      List.getLast?_append_of_ne_nil _ h.1]
    exact (isTight_of_isName h).2
  rw [front, if_neg (path.toList_join_ne_nil h), if_neg hlast, path.segments_join h]

/-- Names add their segments. -/
theorem segments_joinAll (path : Path) {names : List String} (h : ∀ name ∈ names, IsName name)
    (hne : names ≠ []) :
    segments (path.joinAll names).text.toList = path.front ++ names.map String.toList := by
  induction names generalizing path with
  | nil => exact absurd rfl hne
  | cons name names ih =>
    have hname := h name List.mem_cons_self
    by_cases hnames : names = []
    · subst hnames
      exact path.segments_join hname
    · rw [joinAll_cons, ih _ (fun other hother => h other (List.mem_cons_of_mem _ hother)) hnames,
        path.front_join hname, List.map_cons, List.append_assoc, List.singleton_append]

/-- The parts of a path are its first segment before a joined name, and those that say something. -/
theorem parts_eq_front (path : Path) :
    path.parts = match path.front with
      | [] => []
      | first :: more => first :: more.filter fun part => !isSilent part := by
  rw [parts, front]
  by_cases hempty : path.text.toList = []
  · simp [hempty]
  obtain ⟨c, rest, htext⟩ := List.exists_cons_of_ne_nil hempty
  rw [if_neg hempty]
  by_cases hend : path.text.toList.getLast? = some '/'
  · obtain ⟨init, hinit⟩ := List.getLast?_eq_some_iff.mp hend
    have hsegments : segments path.text.toList = segments init ++ [[]] := by
      rw [hinit, show init ++ ['/'] = init ++ '/' :: [] from rfl, segments_append_slash]
      rfl
    obtain ⟨first, more, hfirst⟩ := List.exists_cons_of_ne_nil (segments_ne_nil init)
    rw [if_pos hend, hsegments, hinit, List.dropLast_concat, hfirst]
    cases init with
    | nil => simp [isSilent]
    | cons d init => simp [isSilent]
  · obtain ⟨first, more, hfirst⟩ := List.exists_cons_of_ne_nil (segments_ne_nil path.text.toList)
    rw [if_neg hend, hfirst, htext]

/-- The names of entries say something. -/
theorem dropWhile_names {names : List String} (h : ∀ name ∈ names, IsName name) :
    (names.map String.toList).dropWhile isSilent = names.map String.toList := by
  cases names with
  | nil => rfl
  | cons name names =>
    have hname := h name List.mem_cons_self
    exact List.dropWhile_cons_of_neg (by simp [isSilent, hname.1, hname.2.2.1])

/-- All segments of a path that was continued by names are those before the first name, and then the
    names, with nothing that says something between them. -/
theorem exists_segments_joinAll (base : Path) {names : List String}
    (h : ∀ name ∈ names, IsName name) :
    ∃ tail, (if (base.joinAll names).text.toList = [] then []
        else segments (base.joinAll names).text.toList) = base.front ++ tail ∧
      tail.dropWhile isSilent = names.map String.toList ∧
      (base.front = [] → tail = names.map String.toList) := by
  by_cases hnames : names = []
  · subst hnames
    rw [joinAll_nil]
    by_cases hempty : base.text.toList = []
    · exact ⟨[], by simp [hempty, front], rfl, fun _ => rfl⟩
    have hfront : base.front ≠ [] := fun hnil => hempty ((front_eq_nil_iff base).mp hnil)
    rw [if_neg hempty]
    by_cases hend : base.text.toList.getLast? = some '/'
    · obtain ⟨init, hinit⟩ := List.getLast?_eq_some_iff.mp hend
      refine ⟨[[]], ?_, rfl, fun hnil => absurd hnil hfront⟩
      rw [front, if_neg hempty, if_pos hend, hinit, List.dropLast_concat,
        show init ++ ['/'] = init ++ '/' :: [] from rfl, segments_append_slash]
      rfl
    · exact ⟨[], by rw [front, if_neg hempty, if_neg hend, List.append_nil], rfl,
        fun _ => rfl⟩
  · have hsegments := base.segments_joinAll h hnames
    refine ⟨names.map String.toList, ?_, dropWhile_names h, fun _ => rfl⟩
    rw [if_neg, hsegments]
    intro hempty
    rw [hempty] at hsegments
    -- One empty segment is no name.
    obtain ⟨init, name, rfl⟩ := List.eq_nil_or_concat names |>.resolve_left hnames
    have hlast := congrArg List.getLast? hsegments
    rw [List.concat_eq_append, List.map_append, ← List.append_assoc, List.map_singleton,
      List.getLast?_concat] at hlast
    exact (h name (by simp)).1 (Option.some.inj hlast).symm

/-- **Names behind.** Behind a path that was continued by names, the names stand. -/
theorem behind?_joinAll (base : Path) {names : List String} (h : ∀ name ∈ names, IsName name) :
    (base.joinAll names).behind? base = some ⟨relativeText names⟩ := by
  obtain ⟨tail, hall, hloud, hnil⟩ := base.exists_segments_joinAll h
  have hbehind : segmentsBehind? (base.front ++ tail) base.parts =
      some (names.map String.toList) := by
    rw [parts_eq_front]
    cases hfront : base.front with
    | nil =>
      rw [hnil hfront]
      rfl
    | cons first more =>
      rw [List.cons_append, segmentsBehind?, if_pos rfl, segmentsBehind?_filter, hloud]
  simp only [behind?, hall, hbehind]
  obtain rfl | ⟨init, name, rfl⟩ := List.eq_nil_or_concat names
  · rfl
  have hname : IsName name := h name (by simp)
  rw [List.concat_eq_append] at h ⊢
  have htrim := trimSegments_append_name (init.map String.toList) hname
  rw [List.map_append, List.map_singleton, htrim]
  split
  · rename_i hroot
    have hlast := congrArg List.getLast? hroot
    simp [hname.1] at hlast
  · have htext := intercalate_segments (relativeText (init ++ [name])).toList
    rw [segments_relativeText h (by simp), List.map_append, List.map_singleton] at htext
    rw [ofSegments, htext, String.ofList_toList]

end Path

/-! ### Copies by that rule -/

/-- Copies what stands at `path` as `copyWithin` does. The place in the copy is found by taking the
    source off the path. If that is not possible, the whole path is taken. -/
def copyStripped (order : ListingOrder) (source target : Path) :
    (depth : Nat) → (above : List Ancestor) → (path : Path) → Action CopyError Nat
  | 0, _, path => throw (.walk path .nameTooLong)
  | depth + 1, above, path => do
    let relative := ((path.behind? source).getD path).text
    match ← Action.look id (followEntry above path) with
    | (location, .dir) =>
      Action.makeDirs .write (target.join relative)
      let entries ← Action.look (.walk path) (·.list path)
      let counts ← (order.arrange path entries).mapM fun entry =>
        copyStripped order source target depth (⟨location, path⟩ :: above) (path.join entry.1)
      return counts.foldr (· + ·) 0
    | _ =>
      copyOne path (target.join relative) relative
      return 1

namespace Action

variable {ε α β : Type} {session : Session}

/-- Two actions run alike if their first steps do, and what comes after them. -/
theorem run_bind_congr {first second : Action ε α} {f g : α → Action ε β}
    (hfirst : first.run session = second.run session)
    (h : ∀ value middle, second.run session = .ok value middle →
      (f value).run middle = (g value).run middle) :
    (first >>= f).run session = (second >>= g).run session := by
  cases hrun : second.run session with
  | error e middle =>
    rw [run_bind_error_iff.mpr (.inl hrun), run_bind_error_iff.mpr (.inl (hfirst.trans hrun))]
  | ok value middle =>
    rw [run_bind_of_ok hrun, run_bind_of_ok (hfirst.trans hrun), h value middle hrun]

/-- Two loops run alike if their rounds do on all disks that the rounds preserve. -/
theorem run_mapM_congr (inv : Disk → Prop) {f g : α → Action ε β} {entries : List α}
    (hinv : inv session.disk) (hkeep : ∀ entry ∈ entries, Preserves inv (g entry))
    (h : ∀ entry ∈ entries, ∀ session : Session, inv session.disk →
      (f entry).run session = (g entry).run session) :
    (entries.mapM f).run session = (entries.mapM g).run session := by
  induction entries generalizing session with
  | nil => rfl
  | cons entry entries ih =>
    rw [List.mapM_cons, List.mapM_cons]
    refine run_bind_congr (h entry List.mem_cons_self session hinv) fun value middle hrun => ?_
    have hmiddle := hkeep entry List.mem_cons_self session hinv
    rw [hrun] at hmiddle
    refine run_bind_congr (ih hmiddle ?_ ?_) fun _ _ _ => rfl
    · exact fun other hother => hkeep other (List.mem_cons_of_mem _ hother)
    · exact fun other hother => h other (List.mem_cons_of_mem _ hother)

end Action

variable {order : ListingOrder} {source target path : Path} {session : Session}

/-- Copying a file leaves a tree a tree. -/
theorem preserves_wellFormed_copyOne (path target : Path) (relative : String) :
    Action.Preserves Disk.WellFormed (copyOne path target relative) := by
  have hcopy : Action.Preserves Disk.WellFormed (do
      Action.change .write (·.copyFile path target)
      Action.tell (.copied relative) : Action CopyError Unit) := by
    refine Action.preserves_bind (Action.preserves_change fun disk copied wf hcopied => ?_)
      fun _ _ middle _ _ wf => wf
    obtain ⟨-, location, -, bytes, -, -, -, hfits, rfl, -⟩ := Disk.copyFile_ok hcopied
    exact (Disk.changes_put_file hfits bytes).wellFormed wf
  rw [copyOne]
  cases target.parent? with
  | none => exact hcopy
  | some parent =>
    refine Action.preserves_bind (Action.preserves_makeDirs fun disk wf => ?_)
      fun _ _ middle _ _ wf => hcopy middle wf
    exact (disk.makeDirsUpTo_changes _ parent).wellFormed wf

/-- Copying a tree leaves a tree a tree. -/
theorem preserves_wellFormed_copyWithin (order : ListingOrder) (target : Path) (depth : Nat)
    (above : List Ancestor) (path : Path) (relative : String) :
    Action.Preserves Disk.WellFormed (copyWithin order target depth above path relative) := by
  induction depth generalizing above path relative with
  | zero => exact Action.preserves_throw _
  | succ depth ih =>
    rw [copyWithin]
    refine Action.preserves_bind (Action.preserves_look _ _) fun _ found middle _ _ wf => ?_
    split
    · refine Action.preserves_bind (Action.preserves_makeDirs fun disk wf => ?_)
        (fun _ _ made _ _ wf => ?_) middle wf
      · exact (disk.makeDirsUpTo_changes _ _).wellFormed wf
      refine Action.preserves_bind (Action.preserves_look _ _)
        (fun _ entries listed _ _ wf => ?_) made wf
      refine Action.preserves_bind (Action.preserves_mapM fun entry _ => ih _ _ _)
        (fun _ counts copied _ _ wf => ?_) listed wf
      exact wf
    · refine Action.preserves_bind (preserves_wellFormed_copyOne _ _ _)
        (fun _ _ copied _ _ wf => ?_) middle wf
      exact wf

/-- The copy of an entry goes where `copyWithin` puts it. -/
theorem copyStripped_eq (depth : Nat) (above : List Ancestor) (names : List String)
    (hnames : ∀ name ∈ names, IsName name) (wf : session.disk.WellFormed) :
    (copyStripped order source target depth above (source.joinAll names)).run session =
      (copyWithin order target depth above (source.joinAll names) (relativeText names)).run
        session := by
  induction depth generalizing above names session with
  | zero => rfl
  | succ depth ih =>
    rw [copyStripped, copyWithin, source.behind?_joinAll hnames, Option.getD_some]
    refine Action.run_bind_congr rfl fun found start hfound => ?_
    obtain ⟨-, rfl⟩ := Action.look_ok_iff.mp hfound
    obtain ⟨location, node⟩ := found
    cases node with
    | file bytes => rfl
    | link target => rfl
    | dir =>
      refine Action.run_bind_congr rfl fun _ made hmade => ?_
      obtain ⟨-, rfl⟩ := Action.makeDirs_ok_iff.mp hmade
      have wf' : (start.disk.makeDirs (target.join (relativeText names))).2.WellFormed :=
        (start.disk.makeDirsUpTo_changes _ _).wellFormed wf
      refine Action.run_bind_congr rfl fun entries listed hlisted => ?_
      obtain ⟨hlist, rfl⟩ := Action.look_ok_iff.mp hlisted
      refine Action.run_bind_congr ?_ fun _ _ _ => rfl
      refine Action.run_mapM_congr Disk.WellFormed wf'
        (fun _ _ => preserves_wellFormed_copyWithin _ _ _ _ _ _) fun entry hentry session wf => ?_
      -- The entry has a name that can be spelled, and stands behind the source by one more.
      have hname := isName_of_mem_arrange wf' hlist hentry
      rw [← source.joinAll_concat, ← relativeText_concat]
      exact ih _ _ (List.forall_mem_append.mpr ⟨hnames, by simpa using hname⟩) wf

/-- **Copies stay behind their source.** Taking the source off the path of every entry is always
    possible, and gives the copy that `copyTree` makes. -/
theorem copyStripped_run (order : ListingOrder) (source target : Path)
    (wf : session.disk.WellFormed) :
    (copyStripped order source target (pathLimit + 1) [] source).run session =
      (copyTree order source target).run session :=
  copyStripped_eq (pathLimit + 1) [] [] (by simp) wf

end PageLoom
