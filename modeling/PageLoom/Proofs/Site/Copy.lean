import Mathlib.Data.List.Nodup
import PageLoom.Proofs.Disk.Scan
import PageLoom.Proofs.Site.Session

namespace PageLoom

/-!
# What a copy of a tree does

A tree is copied entry by entry. Whatever happens, the copy changes nothing but its own place and
what is below it. If it succeeds, and its source is nowhere in the place of the copy, then every
file that the source leads to, links followed, has its copy, and no file is counted twice.

* `CopyReady` — the directory that an entry is copied into stands, and has no links;
* `copyWithin_changes` — the changes of a copy stay below its place;
* `TreeCopied`, `copyWithin_ok` — what a copy that succeeds leaves.
-/

/-- An entry, with its names from the root of the copy, can be copied to its place below `base`:
    the directory for it stands there, and there are no links. -/
structure CopyReady (disk : Disk) (target : Path) (base : Location) (names : List String) :
    Prop where
  wellFormed : disk.WellFormed
  noLinks : disk.NoLinksBelow base
  isName : ∀ name ∈ names, IsName name
  stands : ∃ parent up, (target.join (relativeText names)).parent? = some parent ∧
    disk.StandsAt parent up
  leads : disk.PathLeads (target.join (relativeText names)) (names.reverse ++ base)

variable {disk : Disk} {order : ListingOrder} {target path : Path} {base : Location}
  {names : List String} {above : List Ancestor} {session after : Session}

/-- In a copied directory that stands its entries can be copied. -/
theorem CopyReady.entry (wf : disk.WellFormed) (hno : disk.NoLinksBelow base)
    (hnames : ∀ name ∈ names, IsName name)
    (hstands : disk.StandsAt (target.join (relativeText names)) (names.reverse ++ base))
    {name : String} (hname : IsName name) : CopyReady disk target base (names ++ [name]) := by
  have hjoin := target.join_relativeText_concat hnames hname
  refine ⟨wf, hno, fun other hother => ?_, ?_, ?_⟩
  · rcases List.mem_append.mp hother with hother | hother
    · exact hnames other hother
    · rwa [List.mem_singleton.mp hother]
  · obtain ⟨parent, hparent, htrims⟩ := Path.exists_parent?_join _ hname
    rw [hjoin]
    exact ⟨parent, _, hparent, hstands.trims htrims⟩
  · rw [hjoin, List.reverse_append]
    exact (Disk.pathLeads_join_iff hname hstands.pathLeads
      fun path => hno name _ path (List.suffix_append _ _)).mpr rfl

/-- What can be copied can be copied on a disk that grew. -/
theorem CopyReady.grows {later : Disk} (h : CopyReady disk target base names)
    (hgrows : disk.Grows later) (wf : later.WellFormed) : CopyReady later target base names := by
  obtain ⟨parent, up, hparent, hstands⟩ := h.stands
  exact ⟨wf, h.noLinks.grows hgrows, h.isName, ⟨parent, up, hparent, hstands.grows hgrows⟩,
    (hgrows.pathLeads_iff _).mpr h.leads⟩

/-- A tree can be copied to a new name in a standing directory without links. -/
theorem CopyReady.root {output : Path} {place : Location} {name : String} (wf : disk.WellFormed)
    (hstands : disk.StandsAt output place) (hno : disk.NoLinksBelow place) (hname : IsName name) :
    CopyReady disk (output.join name) (name :: place) [] := by
  obtain ⟨parent, hparent, htrims⟩ := output.exists_parent?_join hname
  refine ⟨wf, hno.cons name, by simp, ⟨parent, place, ?_, hstands.trims htrims⟩, ?_⟩
  · exact (output.join name).parent?_join_empty.trans hparent
  · refine (Disk.pathLeads_of_trims (output.join name).trims_join_empty).mp ?_
    exact (Disk.pathLeads_join_iff hname hstands.pathLeads
      fun path => hno name place path List.suffix_rfl).mpr rfl

/-! ### One file -/

/-- A copied file is the one that `copyFile` makes. -/
theorem copyOne_ok (hready : CopyReady session.disk target base names) {value : Unit}
    (h : (copyOne path (target.join (relativeText names)) (relativeText names)).run session =
      .ok value after) :
    session.disk.copyFile path (target.join (relativeText names)) = .ok after.disk := by
  obtain ⟨parent, up, hparent, hstands⟩ := hready.stands
  rw [copyOne, hparent] at h
  obtain ⟨_, middle, hdirs, h⟩ := Action.run_bind_ok_iff.mp h
  rw [Action.run_makeDirs hstands] at hdirs
  cases hdirs
  obtain ⟨_, middle, hchange, h⟩ := Action.run_bind_ok_iff.mp h
  obtain ⟨copied, hcopy, rfl⟩ := Action.change_ok_iff.mp hchange
  cases h
  exact hcopy

/-- A file that was not copied changed nothing. -/
theorem copyOne_error (hready : CopyReady session.disk target base names) {e : CopyError}
    (h : (copyOne path (target.join (relativeText names)) (relativeText names)).run session =
      .error e after) : after = session := by
  obtain ⟨parent, up, hparent, hstands⟩ := hready.stands
  rw [copyOne, hparent] at h
  rcases Action.run_bind_error_iff.mp h with hdirs | ⟨_, middle, hdirs, h⟩
  · rw [Action.run_makeDirs hstands] at hdirs
    cases hdirs
  rw [Action.run_makeDirs hstands] at hdirs
  cases hdirs
  rcases Action.run_bind_error_iff.mp h with hchange | ⟨_, middle, -, h⟩
  · obtain ⟨-, -, -, rfl⟩ := Action.change_error_iff.mp hchange
    rfl
  · cases h

/-- One file is copied to its own place. -/
theorem copyOne_changes (path : Path) (hready : CopyReady session.disk target base names) :
    session.disk.Changes (names.reverse ++ base <:+ ·) (names.reverse ++ base <:+ ·)
      (finalDisk ((copyOne path (target.join (relativeText names)) (relativeText names)).run
        session)) := by
  cases hrun : (copyOne path (target.join (relativeText names)) (relativeText names)).run session with
  | ok value after =>
    obtain ⟨origin, location, old, bytes, -, -, hleads, hfits, hafter, -⟩ :=
      Disk.copyFile_ok (copyOne_ok hready hrun)
    cases hleads.unique hready.leads
    show session.disk.Changes _ _ after.disk
    rw [hafter]
    refine (Disk.changes_put_file hfits bytes).mono (fun _ => False.elim) ?_
    rintro _ rfl
    exact List.suffix_rfl
  | error e after =>
    cases copyOne_error hready hrun
    exact .refl _

/-! ### Whole trees -/

/-- The names that are listed can be spelled. -/
theorem isName_of_mem_arrange (wf : disk.WellFormed) {entries : List (String × Node)}
    (hlist : disk.list path = .ok entries) {entry : String × Node}
    (hentry : entry ∈ order.arrange path entries) : IsName entry.1 := by
  obtain ⟨location, -, rfl⟩ := Disk.list_ok_iff.mp hlist
  exact wf.isName ((Disk.mem_children_iff wf).mp ((order.perm _ _).mem_iff.mp hentry))

/-- The directory for a copied directory is made, and stands then. -/
theorem makeDirs_target (hready : CopyReady disk target base names) :
    disk.Changes (· = names.reverse ++ base) (fun _ => False)
        (disk.makeDirs (target.join (relativeText names))).2 ∧
      ((disk.makeDirs (target.join (relativeText names))).1 = .ok () →
        (disk.makeDirs (target.join (relativeText names))).2.StandsAt
          (target.join (relativeText names)) (names.reverse ++ base)) := by
  obtain ⟨parent, up, hparent, hstands⟩ := hready.stands
  have hchanges := Disk.makeDirs_below hparent hstands hready.leads
  refine ⟨hchanges, fun hok => ?_⟩
  obtain ⟨location, hlocation⟩ := Disk.makeDirsUpTo_ok hok
  have hleads := (hchanges.grows.pathLeads_iff _).mp hlocation.pathLeads
  rwa [← hleads.unique hready.leads]

/-- While a directory is being copied, only its place and what is below it changed, and the
    directory of its copy stands. -/
def CopyUnderWay (start : Disk) (target : Path) (base : Location) (names : List String)
    (disk : Disk) : Prop :=
  start.Changes (names.reverse ++ base <:+ ·) (names.reverse ++ base <:+ ·) disk ∧
    disk.StandsAt (target.join (relativeText names)) (names.reverse ++ base)

/-- What is below an entry is below its directory. -/
theorem suffix_of_suffix_concat {name : String} {location : Location}
    (h : (names ++ [name]).reverse ++ base <:+ location) : names.reverse ++ base <:+ location := by
  rw [List.reverse_append, List.append_assoc] at h
  exact (List.suffix_cons _ _).trans h

/-- A copy of one entry, which changes only what is below the place of its copy, may be a part of
    the copy of a directory. -/
theorem preserves_copyUnderWay {start : Disk} {name : String} {copy : Action CopyError Nat}
    (wf : start.WellFormed) (hno : start.NoLinksBelow base) (hnames : ∀ name ∈ names, IsName name)
    (hname : IsName name)
    (hcopy : ∀ session : Session, CopyReady session.disk target base (names ++ [name]) →
      session.disk.Changes ((names ++ [name]).reverse ++ base <:+ ·)
        ((names ++ [name]).reverse ++ base <:+ ·) (finalDisk (copy.run session))) :
    Action.Preserves (CopyUnderWay start target base names) copy := by
  rintro session ⟨hchanges, hstands⟩
  have hnext := hcopy session (CopyReady.entry (hchanges.wellFormed wf) (hno.grows hchanges.grows)
    hnames hstands hname)
  exact ⟨hchanges.trans (hnext.mono (fun _ => suffix_of_suffix_concat)
    fun _ => suffix_of_suffix_concat), hstands.grows hnext.grows⟩

/-- **Frame.** Whether or not a copy succeeds, it changes nothing but its own place and what is
    below it. -/
theorem copyWithin_changes (depth : Nat) (hready : CopyReady session.disk target base names) :
    session.disk.Changes (names.reverse ++ base <:+ ·) (names.reverse ++ base <:+ ·)
      (finalDisk ((copyWithin order target depth above path (relativeText names)).run session)) := by
  induction depth generalizing session above path names with
  | zero => exact .refl session.disk
  | succ depth ih =>
    rw [copyWithin]
    cases hfollow : (Action.look id (followEntry above path) : Action CopyError _).run session with
    | error e after =>
      obtain ⟨-, -, -, rfl⟩ := Action.look_error_iff.mp hfollow
      rw [Action.run_bind_error_iff.mpr (.inl hfollow)]
      exact .refl _
    | ok found after =>
      obtain ⟨-, rfl⟩ := Action.look_ok_iff.mp hfollow
      rw [Action.run_bind_of_ok hfollow]
      split
      · -- A directory: one is made for it, and its entries are copied while it stands.
        obtain ⟨hmade, hstands⟩ := makeDirs_target hready
        replace hmade : after.disk.Changes (names.reverse ++ base <:+ ·) (names.reverse ++ base <:+ ·)
            (after.disk.makeDirs (target.join (relativeText names))).2 :=
          hmade.mono (fun _ hplace => hplace ▸ List.suffix_rfl) fun _ => False.elim
        cases hdirs : (Action.makeDirs .write (target.join (relativeText names)) :
            Action CopyError Unit).run after with
        | error e made =>
          obtain ⟨-, -, -, rfl⟩ := Action.makeDirs_error_iff.mp hdirs
          rw [Action.run_bind_error_iff.mpr (.inl hdirs)]
          exact hmade
        | ok value made =>
          obtain ⟨hok, rfl⟩ := Action.makeDirs_ok_iff.mp hdirs
          rw [Action.run_bind_of_ok hdirs]
          have hunderWay : CopyUnderWay after.disk target base names
              (after.disk.makeDirs (target.join (relativeText names))).2 := ⟨hmade, hstands hok⟩
          -- To go on, the directory must be known to stand, which the changes do not say.
          refine (?_ : CopyUnderWay after.disk target base names _).1
          refine Action.preserves_bind (Action.preserves_look _ _)
            (fun start entries middle hstart hlist hinv => ?_) _ hunderWay
          obtain ⟨hentries, rfl⟩ := Action.look_ok_iff.mp hlist
          refine Action.preserves_bind (Action.preserves_mapM fun entry hentry => ?_)
            (fun _ _ middle _ _ hinv => Action.preserves_pure _ middle hinv) _ hinv
          have hname := isName_of_mem_arrange (hinv.1.wellFormed hready.wellFormed) hentries hentry
          refine preserves_copyUnderWay hready.wellFormed hready.noLinks hready.isName hname
            fun session hnext => ?_
          rw [← relativeText_concat]
          exact ih hnext
      · -- Anything else is copied as a file.
        cases hrun : (copyOne path (target.join (relativeText names)) (relativeText names)).run after
          with
        | error e made =>
          have hone := copyOne_changes path hready
          rw [hrun] at hone
          rw [Action.run_bind_error_iff.mpr (.inl hrun)]
          exact hone
        | ok value made =>
          have hone := copyOne_changes path hready
          rw [hrun] at hone
          rw [Action.run_bind_of_ok hrun]
          exact hone

/-! ### What a copy leaves -/

/-- The path, and all that is below it, leads to no place at or below `base`. -/
def StaysOut (disk : Disk) (path : Path) (base : Location) : Prop :=
  ∀ names origin, (∀ name ∈ names, IsName name) → disk.PathLeads (path.joinAll names) origin →
    ¬ base <:+ origin

/-- Growth does not lead a path into a place. -/
theorem StaysOut.grows {before after : Disk} (h : StaysOut before path base)
    (hgrows : before.Grows after) : StaysOut after path base :=
  fun names origin hnames hleads => h names origin hnames ((hgrows.pathLeads_iff _).mp hleads)

/-- What is below a path stays out too. -/
theorem StaysOut.join {name : String} (h : StaysOut disk path base) (hname : IsName name) :
    StaysOut disk (path.join name) base :=
  fun names origin hnames hleads => h (name :: names) origin
    (fun other hother => by
      rcases List.mem_cons.mp hother with rfl | hother
      · exact hname
      · exact hnames other hother) hleads

/-- Some of the files below a path, as they were on the disk `start`, were copied below a place,
    and nothing else changed between two disks but that directories for them were made. -/
structure CopiedAmong (among : List String → Prop) (start : Disk) (path : Path) (place : Location)
    (before after : Disk) (files : List (List String × ByteArray)) : Prop where
  nodup : (files.map Prod.fst).Nodup
  mem_iff : ∀ names bytes, (names, bytes) ∈ files ↔
    among names ∧ (∀ name ∈ names, IsName name) ∧ start.HoldsBytes (path.joinAll names) bytes
  copied : ∀ names bytes, (names, bytes) ∈ files →
    after.node? (names.reverse ++ place) = some (.file bytes)
  changes : before.Changes
    (fun location => ∃ names origin, among names ∧ (∀ name ∈ names, IsName name) ∧
      start.PathLeads (path.joinAll names) origin ∧ start.node? origin = some .dir ∧
      location = names.reverse ++ place)
    (fun location => ∃ names bytes, (names, bytes) ∈ files ∧ location = names.reverse ++ place)
    after

/-- All files below a path were copied below a place. -/
def TreeCopied (before : Disk) (path : Path) (place : Location) (after : Disk)
    (files : List (List String × ByteArray)) : Prop :=
  CopiedAmong (fun _ => True) before path place before after files

section Copied

variable {among others : List String → Prop} {start before middle after : Disk} {place : Location}
  {files more : List (List String × ByteArray)}

/-- Nothing was copied. -/
theorem copiedAmong_nil (hnone : ∀ names, ¬ among names) :
    CopiedAmong among start path place before before [] :=
  ⟨by simp, fun names bytes => by simp [hnone names], by simp, .refl before⟩

/-- Where names lead down from a place tells the names. -/
theorem eq_of_reverse_append_eq {names others : List String}
    (h : names.reverse ++ place = others.reverse ++ place) : names = others :=
  List.reverse_injective (List.append_cancel_right h)

/-- **Copies together.** Files with different names are copied one after the other. -/
theorem CopiedAmong.append (h : CopiedAmong among start path place before middle files)
    (h' : CopiedAmong others start path place middle after more)
    (hapart : ∀ names, among names → ¬ others names) :
    CopiedAmong (fun names => among names ∨ others names) start path place before after
      (files ++ more) := by
  have hfirst : ∀ names bytes, (names, bytes) ∈ files → among names :=
    fun names bytes hmem => ((h.mem_iff names bytes).mp hmem).1
  have hsecond : ∀ names bytes, (names, bytes) ∈ more → others names :=
    fun names bytes hmem => ((h'.mem_iff names bytes).mp hmem).1
  refine ⟨?_, fun names bytes => ?_, fun names bytes hmem => ?_, ?_⟩
  -- Neither part copies a name twice, and no name is of both.
  · rw [List.map_append]
    refine List.nodup_append.mpr ⟨h.nodup, h'.nodup, ?_⟩
    rintro names hnames _ hother rfl
    obtain ⟨⟨names, bytes⟩, hmem, rfl⟩ := List.mem_map.mp hnames
    obtain ⟨⟨_, bytes'⟩, hmem', rfl⟩ := List.mem_map.mp hother
    exact hapart _ (hfirst _ _ hmem) (hsecond _ _ hmem')
  · rw [List.mem_append, h.mem_iff, h'.mem_iff, or_and_right]
  · rcases List.mem_append.mp hmem with hmem | hmem
    · -- The later copies stand at other places.
      rw [h'.changes.node_eq, h.copied names bytes hmem]
      · rintro ⟨other, origin, hother, -, -, -, hplace⟩
        rw [eq_of_reverse_append_eq hplace] at hmem
        exact hapart other (hfirst _ _ hmem) hother
      · rintro ⟨other, bytes', hother, hplace⟩
        rw [eq_of_reverse_append_eq hplace] at hmem
        exact hapart other (hfirst _ _ hmem) (hsecond _ _ hother)
    · exact h'.copied names bytes hmem
  · refine (h.changes.mono ?_ ?_).trans (h'.changes.mono ?_ ?_)
    · rintro _ ⟨names, origin, hnames, hrest⟩
      exact ⟨names, origin, .inl hnames, hrest⟩
    · rintro _ ⟨names, bytes, hmem, hplace⟩
      exact ⟨names, bytes, List.mem_append_left _ hmem, hplace⟩
    · rintro _ ⟨names, origin, hnames, hrest⟩
      exact ⟨names, origin, .inr hnames, hrest⟩
    · rintro _ ⟨names, bytes, hmem, hplace⟩
      exact ⟨names, bytes, List.mem_append_right _ hmem, hplace⟩

/-- Which files were copied may be told in another way. -/
theorem CopiedAmong.congr (h : CopiedAmong among start path place before after files)
    (hiff : ∀ names, among names ↔ others names) :
    CopiedAmong others start path place before after files := by
  have heq : among = others := funext fun names => propext (hiff names)
  rwa [← heq]

/-- Changes below a place do not change what stays out of it. -/
theorem Disk.Changes.node_of_staysOut (h : before.Changes (base <:+ ·) (base <:+ ·) after)
    (hout : StaysOut before path base) {names : List String} (hnames : ∀ name ∈ names, IsName name)
    {origin : Location} (hleads : before.PathLeads (path.joinAll names) origin) :
    after.node? origin = before.node? origin :=
  h.node_eq (hout names origin hnames hleads) (hout names origin hnames hleads)

/-- Files written below a place do not change what the files hold that stay out of it. -/
theorem Disk.Changes.holdsBytes_iff {dirs : Location → Prop}
    (h : before.Changes dirs (base <:+ ·) after) (hout : StaysOut before path base)
    {names : List String} (hnames : ∀ name ∈ names, IsName name) {bytes : ByteArray} :
    after.HoldsBytes (path.joinAll names) bytes ↔ before.HoldsBytes (path.joinAll names) bytes := by
  refine exists_congr fun origin => ?_
  rw [h.grows.pathLeads_iff]
  exact and_congr_right fun hleads => h.node_iff (hout names origin hnames hleads) (by simp)

/-- The copy of one entry of a directory is a part of the copy of the directory. -/
theorem TreeCopied.entry {name : String}
    (h : TreeCopied before (path.join name) (name :: place) after files) (hname : IsName name)
    (hstart : start.Changes (base <:+ ·) (base <:+ ·) before) (hout : StaysOut start path base) :
    CopiedAmong (fun names => ∃ below, names = name :: below) start path place before after
      (files.map fun file => (name :: file.1, file.2)) := by
  have hcons : ∀ {below : List String}, (∀ other ∈ below, IsName other) →
      ∀ other ∈ name :: below, IsName other := fun hbelow other hother => by
    rcases List.mem_cons.mp hother with rfl | hother
    · exact hname
    · exact hbelow other hother
  refine ⟨?_, fun names bytes => ?_, fun names bytes hmem => ?_, h.changes.mono ?_ ?_⟩
  · rw [List.map_map]
    have hmap : (Prod.fst ∘ fun file : List String × ByteArray => (name :: file.1, file.2)) =
        (name :: ·) ∘ Prod.fst := rfl
    rw [hmap, ← List.map_map]
    exact List.Nodup.map (fun _ _ heq => (List.cons.inj heq).2) h.nodup
  -- The copies so far left the source alone: it holds what it held at the start.
  · simp only [List.mem_map, Prod.mk.injEq]
    constructor
    · rintro ⟨⟨below, _⟩, hmem, rfl, rfl⟩
      obtain ⟨-, hbelow, hholds⟩ := (h.mem_iff below _).mp hmem
      exact ⟨⟨below, rfl⟩, hcons hbelow, (hstart.holdsBytes_iff hout (hcons hbelow)).mp hholds⟩
    · rintro ⟨⟨below, rfl⟩, hnames, hholds⟩
      refine ⟨(below, bytes), (h.mem_iff below bytes).mpr ⟨trivial, fun other hother =>
        hnames other (List.mem_cons_of_mem _ hother), ?_⟩, rfl, rfl⟩
      exact (hstart.holdsBytes_iff hout hnames).mpr hholds
  · obtain ⟨⟨below, _⟩, hbelow, heq⟩ := List.mem_map.mp hmem
    cases heq
    rw [List.reverse_cons, List.append_assoc]
    exact h.copied below _ hbelow
  · rintro _ ⟨below, origin, -, hbelow, hleads, hdir, rfl⟩
    have hleads' := (hstart.grows.pathLeads_iff _).mp hleads
    refine ⟨name :: below, origin, ⟨below, rfl⟩, hcons hbelow, hleads', ?_, by simp⟩
    rwa [← hstart.node_of_staysOut hout (hcons hbelow) hleads']
  · rintro _ ⟨below, bytes, hmem, rfl⟩
    exact ⟨name :: below, bytes, List.mem_map.mpr ⟨_, hmem, rfl⟩, by simp⟩

end Copied

/-! ### Copies that succeed -/

/-- What stands for an entry is what its path leads to. -/
theorem status_of_followEntry {location : Location} {node : Node}
    (h : followEntry above path disk = .ok (location, node)) :
    disk.status path = .ok (location, node) := by
  -- A link is followed; one to a directory that is being copied already is an error.
  rw [followEntry] at h
  split at h
  · cases h
  · split at h
    · cases h
    · rename_i hdir
      split at h
      · cases h
      · cases h
        exact hdir
    · rename_i hfound
      cases h
      exact hfound
  · rename_i hno hfound
    cases h
    exact Disk.status_of_linkStatus (fun target hlink => hno location target (hlink ▸ rfl)) hfound

/-- An entry is followed alike on another disk on which its path is. -/
theorem followEntry_congr {other : Disk}
    (h : ∀ follow, other.locate follow path = disk.locate follow path) :
    followEntry above path other = followEntry above path disk := by
  rw [followEntry, followEntry, Disk.status, Disk.status, Disk.linkStatus, Disk.linkStatus, h, h]

/-- **Entries.** If the copy of each entry leaves a copy of what is below it, then the copy of all
    entries leaves their copies together. -/
theorem copyEntries_ok {start : Disk} {copy : String × Node → Action CopyError Nat}
    {entries : List (String × Node)} {counts : List Nat}
    (hnames : ∀ entry ∈ entries, IsName entry.1) (hnodup : (entries.map Prod.fst).Nodup)
    (hout : StaysOut start path base)
    (hkeep : ∀ entry ∈ entries,
      Action.Preserves (CopyUnderWay start target base names) (copy entry))
    (hcopy : ∀ entry ∈ entries, ∀ (session : Session) (count : Nat) (after : Session),
      CopyUnderWay start target base names session.disk →
      (copy entry).run session = .ok count after →
      ∃ files, TreeCopied session.disk (path.join entry.1) (entry.1 :: (names.reverse ++ base))
        after.disk files ∧ count = files.length)
    (hunderWay : CopyUnderWay start target base names session.disk)
    (hrun : (entries.mapM copy).run session = .ok counts after) :
    ∃ files, CopiedAmong (fun below => ∃ entry ∈ entries, ∃ rest, below = entry.1 :: rest) start
      path (names.reverse ++ base) session.disk after.disk files ∧ counts.foldr (· + ·) 0 = files.length := by
  induction entries generalizing session counts with
  | nil =>
    cases hrun
    exact ⟨[], copiedAmong_nil (by simp), rfl⟩
  | cons entry entries ih =>
    rw [List.map_cons, List.nodup_cons] at hnodup
    obtain ⟨count, middle, more, hentry, hmore, rfl⟩ := Action.run_mapM_cons_ok_iff.mp hrun
    obtain ⟨files, hfiles, rfl⟩ := hcopy entry List.mem_cons_self session _ middle hunderWay hentry
    have hmiddle : CopyUnderWay start target base names middle.disk := by
      have hafter := hkeep entry List.mem_cons_self session hunderWay
      rwa [hentry] at hafter
    -- The first copy leaves the disk as the induction hypothesis needs it for the others.
    obtain ⟨others, hothers, hsum⟩ := ih
      (fun other hother => hnames other (List.mem_cons_of_mem _ hother)) hnodup.2
      (fun other hother => hkeep other (List.mem_cons_of_mem _ hother))
      (fun other hother => hcopy other (List.mem_cons_of_mem _ hother)) hmiddle hmore
    -- What was copied so far did not touch the source, so the entry is as it was at the start.
    have hwide : start.Changes (base <:+ ·) (base <:+ ·) session.disk :=
      hunderWay.1.mono (fun _ => (List.suffix_append _ _).trans)
        fun _ => (List.suffix_append _ _).trans
    have hfirst := hfiles.entry (hnames entry List.mem_cons_self) hwide hout
    refine ⟨_, (hfirst.append hothers ?_).congr fun below => ?_, ?_⟩
    · rintro _ ⟨rest, rfl⟩ ⟨other, hother, rest', heq⟩
      refine hnodup.1 (List.mem_map.mpr ⟨other, hother, ?_⟩)
      exact (List.cons.inj heq).1.symm
    · simp [or_and_right, exists_or]
    · rw [List.foldr_cons, List.length_append, List.length_map, hsum]

/-- A copied file is the only one below its path. -/
theorem treeCopied_of_copyOne (hready : CopyReady session.disk target base names)
    (hout : StaysOut session.disk path base) {value : Unit}
    (h : (copyOne path (target.join (relativeText names)) (relativeText names)).run session =
      .ok value after) :
    ∃ bytes, TreeCopied session.disk path (names.reverse ++ base) after.disk [([], bytes)] := by
  obtain ⟨origin, location, old, bytes, hsource, hold, hleads, hfits, hafter, hbytes⟩ :=
    Disk.copyFile_ok (copyOne_ok hready h)
  cases hleads.unique hready.leads
  -- The source stays out of the copy, so the file is not copied onto itself.
  have hother : origin ≠ names.reverse ++ base := by
    rintro rfl
    exact hout [] _ (by simp) hsource (List.suffix_append _ _)
  rw [if_neg hother] at hbytes
  subst hbytes
  refine ⟨bytes, by simp, fun below bytes => ?_, fun below bytes hmem => ?_, ?_⟩
  · simp only [List.mem_singleton, Prod.mk.injEq, true_and]
    constructor
    · rintro ⟨rfl, rfl⟩
      exact ⟨by simp, origin, hsource, hold⟩
    · rintro ⟨hbelow, hholds⟩
      -- There is nothing below a file, so the file itself is all that it leads to.
      cases below with
      | nil => exact ⟨rfl, hholds.unique ⟨origin, hsource, hold⟩⟩
      | cons name below =>
        obtain ⟨node, hnode⟩ := hholds.exists_entry hready.wellFormed hbelow hsource
        rw [hready.wellFormed.parent hnode] at hold
        cases hold
  · cases List.mem_singleton.mp hmem
    obtain ⟨name, up, hplace⟩ := hfits.exists_cons
    rw [hafter, List.reverse_nil, List.nil_append, hplace, Disk.node?_put_self]
  · rw [hafter]
    refine (Disk.changes_put_file hfits bytes).mono (fun _ => False.elim) ?_
    rintro _ rfl
    exact ⟨[], bytes, List.mem_singleton_self _, rfl⟩

/-- Copies of all entries of a directory are a copy of the directory, if its own copy stands. -/
theorem treeCopied_of_entries {location : Location} {entries : List (String × Node)}
    {files : List (List String × ByteArray)} (wf : disk.WellFormed)
    (hleads : disk.PathLeads path location) (hdir : disk.node? location = some .dir)
    (hentries : ∀ entry, entry ∈ entries ↔ entry ∈ disk.children location)
    (h : CopiedAmong (fun below => ∃ entry ∈ entries, ∃ rest, below = entry.1 :: rest) disk path
      (names.reverse ++ base) disk after.disk files) :
    TreeCopied disk path (names.reverse ++ base) after.disk files := by
  refine ⟨h.nodup, fun below bytes => ?_, h.copied, h.changes.mono ?_ fun _ => id⟩
  · rw [h.mem_iff]
    refine ⟨fun ⟨_, hbelow, hholds⟩ => ⟨trivial, hbelow, hholds⟩, ?_⟩
    rintro ⟨-, hbelow, hholds⟩
    refine ⟨?_, hbelow, hholds⟩
    -- The directory itself is no file, and all below it is in one of its entries.
    cases below with
    | nil =>
      obtain ⟨origin, horigin, hfile⟩ := hholds
      cases hleads.unique horigin
      rw [hdir] at hfile
      cases hfile
    | cons name below =>
      obtain ⟨node, hnode⟩ := hholds.exists_entry wf hbelow hleads
      exact ⟨(name, node), (hentries _).mpr ((Disk.mem_children_iff wf).mpr hnode), below, rfl⟩
  · rintro _ ⟨below, origin, -, hbelow, horigin, hnode, hplace⟩
    exact ⟨below, origin, trivial, hbelow, horigin, hnode, hplace⟩

/-- A copy of a directory whose place was made just before is a copy of it as it was then. -/
theorem TreeCopied.of_made {start later : Disk} {location : Location}
    {files : List (List String × ByteArray)}
    (h : TreeCopied disk path (names.reverse ++ base) later files)
    (hleads : start.PathLeads path location) (hdir : start.node? location = some .dir)
    (hmade : start.Changes (· = names.reverse ++ base) (fun _ => False) disk)
    (hout : StaysOut start path base) :
    TreeCopied start path (names.reverse ++ base) later files := by
  have hwide : start.Changes (base <:+ ·) (base <:+ ·) disk :=
    hmade.mono (fun _ hplace => hplace ▸ List.suffix_append _ _) fun _ => False.elim
  refine ⟨h.nodup, fun below bytes => ?_, h.copied,
    (hmade.mono ?_ fun _ => False.elim).trans (h.changes.mono ?_ fun _ => id)⟩
  · rw [h.mem_iff]
    exact and_congr_right fun _ => and_congr_right fun hbelow => hwide.holdsBytes_iff hout hbelow
  · rintro _ rfl
    exact ⟨[], location, trivial, by simp, hleads, hdir, rfl⟩
  · rintro _ ⟨below, origin, -, hbelow, horigin, hnode, hplace⟩
    have horigin' := (hwide.grows.pathLeads_iff _).mp horigin
    rw [hwide.node_of_staysOut hout hbelow horigin'] at hnode
    exact ⟨below, origin, trivial, hbelow, horigin', hnode, hplace⟩

/-- **Directories.** If the copy of each entry of a directory leaves a copy of what is below it, then
    the copy of all of them, into a directory that stands, leaves a copy of the directory. -/
theorem copyDirectory_ok {depth : Nat} {location : Location} {entries : List (String × Node)}
    {counts : List Nat} (wf : session.disk.WellFormed) (hno : session.disk.NoLinksBelow base)
    (hnames : ∀ name ∈ names, IsName name) (hout : StaysOut session.disk path base)
    (hstands : session.disk.StandsAt (target.join (relativeText names)) (names.reverse ++ base))
    (hleads : session.disk.PathLeads path location)
    (hlist : session.disk.list path = .ok entries)
    (hcopy : ∀ name, ∀ (session : Session) (count : Nat) (after : Session),
      CopyReady session.disk target base (names ++ [name]) →
      StaysOut session.disk (path.join name) base →
      (copyWithin order target depth (⟨location, path⟩ :: above) (path.join name)
        (relativeText (names ++ [name]))).run session = .ok count after →
      ∃ files, TreeCopied session.disk (path.join name) ((names ++ [name]).reverse ++ base)
        after.disk files ∧ count = files.length)
    (hrun : ((order.arrange path entries).mapM fun entry =>
      copyWithin order target depth (⟨location, path⟩ :: above) (path.join entry.1)
        (entryBelow (relativeText names) entry.1)).run session = .ok counts after) :
    ∃ files, TreeCopied session.disk path (names.reverse ++ base) after.disk files ∧
      counts.foldr (· + ·) 0 = files.length := by
  -- The entries are those of the directory, each one once, in the listing order.
  obtain ⟨place, hstatus, rfl⟩ := Disk.list_ok_iff.mp hlist
  obtain ⟨hplace, hdir⟩ := Disk.pathLeads_of_status hstatus
  cases hplace.unique hleads
  have hperm := order.perm path (session.disk.children location)
  have hentries : ∀ entry ∈ order.arrange path _, IsName entry.1 := fun entry hentry =>
    isName_of_mem_arrange wf hlist hentry
  have hnodup := (hperm.map Prod.fst).nodup_iff.mpr (Disk.nodup_children wf location)
  -- Each entry keeps the copy under way, and leaves its own copy.
  obtain ⟨files, hfiles, hsum⟩ := copyEntries_ok hentries hnodup hout
    (fun entry hentry => preserves_copyUnderWay wf hno hnames (hentries entry hentry)
      fun session hnext => by
        rw [← relativeText_concat]
        exact copyWithin_changes depth hnext)
    (fun entry hentry session count after hunderWay hrun => by
      rw [← relativeText_concat] at hrun
      have hnext := CopyReady.entry (hunderWay.1.wellFormed wf)
        (hno.grows hunderWay.1.grows) hnames hunderWay.2 (hentries entry hentry)
      have hcopied := hcopy entry.1 session count after hnext
        ((hout.grows hunderWay.1.grows).join (hentries entry hentry)) hrun
      rwa [List.reverse_append] at hcopied)
    ⟨.refl _, hstands⟩ hrun
  exact ⟨files, treeCopied_of_entries wf hleads hdir (fun _ => hperm.mem_iff) hfiles, hsum⟩

/-- **Copies.** A copy that succeeds, of a tree that leads nowhere into its own copy, leaves a
    copy of every file that the source leads to, and counts them. -/
theorem copyWithin_ok {depth count : Nat} (hready : CopyReady session.disk target base names)
    (hout : StaysOut session.disk path base)
    (h : (copyWithin order target depth above path (relativeText names)).run session =
      .ok count after) :
    ∃ files, TreeCopied session.disk path (names.reverse ++ base) after.disk files ∧
      count = files.length := by
  induction depth generalizing session above path names count after with
  | zero => cases h
  | succ depth ih =>
    rw [copyWithin] at h
    obtain ⟨found, start, hfollow, hrest⟩ := Action.run_bind_ok_iff.mp h
    obtain ⟨hfound, rfl⟩ := Action.look_ok_iff.mp hfollow
    split at hrest
    · rename_i location
      obtain ⟨hleads, hdir⟩ := Disk.pathLeads_of_status (status_of_followEntry hfound)
      obtain ⟨_, made, hdirs, hrest⟩ := Action.run_bind_ok_iff.mp hrest
      obtain ⟨hok, rfl⟩ := Action.makeDirs_ok_iff.mp hdirs
      obtain ⟨entries, _, hlist, hrest⟩ := Action.run_bind_ok_iff.mp hrest
      obtain ⟨hlisted, rfl⟩ := Action.look_ok_iff.mp hlist
      obtain ⟨counts, _, hcopies, hrest⟩ := Action.run_bind_ok_iff.mp hrest
      cases hrest
      obtain ⟨hmade, hstands⟩ := makeDirs_target hready
      obtain ⟨files, hfiles, hsum⟩ := copyDirectory_ok (hmade.wellFormed hready.wellFormed)
        (hready.noLinks.grows hmade.grows) hready.isName (hout.grows hmade.grows) (hstands hok)
        ((hmade.grows.pathLeads_iff path).mpr hleads) hlisted
        (fun name session count after hnext hout hrun => ih hnext hout hrun) hcopies
      exact ⟨files, hfiles.of_made hleads hdir hmade hout, hsum⟩
    · obtain ⟨_, _, hone, hrest⟩ := Action.run_bind_ok_iff.mp hrest
      cases hrest
      obtain ⟨bytes, hcopied⟩ := treeCopied_of_copyOne hready hout hone
      exact ⟨_, hcopied, rfl⟩

/-- **Tree copies, always.** A copy of a tree changes nothing but its own place and what is below
    it, whether or not it succeeds. -/
theorem copyTree_changes (order : ListingOrder) (source : Path)
    (hready : CopyReady session.disk target base []) :
    session.disk.Changes (base <:+ ·) (base <:+ ·)
      (finalDisk ((copyTree order source target).run session)) :=
  copyWithin_changes (pathLimit + 1) hready

/-- **Tree copies that succeed.** A copy of a tree leaves a copy of every file that the source
    leads to, and counts them. -/
theorem copyTree_ok {source : Path} {count : Nat} (hready : CopyReady session.disk target base [])
    (hout : StaysOut session.disk source base)
    (h : (copyTree order source target).run session = .ok count after) :
    ∃ files, TreeCopied session.disk source base after.disk files ∧ count = files.length :=
  copyWithin_ok hready hout h

end PageLoom
