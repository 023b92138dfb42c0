import PageLoom.Proofs.Site.Reorder

namespace PageLoom

/-!
# Copies in another listing order

The entries of a directory are copied to different places, so they can be copied in any order, at
every depth of a tree.

* `CopyHere`, `CopyOpen` — the place of a copy, and the directory that entries are copied into;
* `copyOne_again` — one file on two disks;
* `copyWithin_follows` — a tree on two disks, with two listing orders;
* `copyAssets_reorder` — the last stage of a build.
-/

namespace Disk

variable {place base location : Location}

/-- What stands at or below a place inside a directory is inside the directory. -/
theorem Within.suffix (h : Within place base) (hlocation : base <:+ location) :
    Within place location := by
  refine ⟨h.1.trans hlocation, ?_⟩
  rintro rfl
  exact h.2 (hlocation.eq_of_length_le h.1.length_le)

end Disk

/-- While a site is built, an entry can be copied to its place inside the output directory. -/
structure CopyHere (ready : Disk) (place : Location) (target : Path) (base : Location)
    (names : List String) (disk : Disk) : Prop where
  building : Building ready place disk
  copyReady : CopyReady disk target base names
  isEntry : ∃ name up, names.reverse ++ base = name :: up ∧
    disk.IsEntry (target.join (relativeText names)) up name

/-- While a site is built, the directory of a copy stands inside the output directory. -/
structure CopyOpen (ready : Disk) (place : Location) (target : Path) (base : Location)
    (names : List String) (disk : Disk) : Prop where
  building : Building ready place disk
  stands : disk.StandsAt (target.join (relativeText names)) (names.reverse ++ base)
  dir : disk.node? (names.reverse ++ base) = some .dir

variable {ready disk changed : Disk} {place base : Location} {target path : Path}
  {names : List String} {name : String} {session other after : Session}
  {first second : ListingOrder} {above : List Ancestor}

/-- What is copied to a place below `base` is inside the output directory. -/
theorem Building.copied (h : Building ready place disk) (hinside : Disk.Within place base)
    (hcopy : disk.Changes (names.reverse ++ base <:+ ·) (names.reverse ++ base <:+ ·) changed) :
    Building ready place changed :=
  h.step hcopy (fun _ hbelow => hinside.suffix ((List.suffix_append _ _).trans hbelow))
    fun _ hbelow => hinside.suffix ((List.suffix_append _ _).trans hbelow)

/-- An entry can be copied again after it was copied. -/
theorem CopyHere.copied (h : CopyHere ready place target base names disk)
    (hinside : Disk.Within place base)
    (hcopy : disk.Changes (names.reverse ++ base <:+ ·) (names.reverse ++ base <:+ ·) changed) :
    CopyHere ready place target base names changed := by
  obtain ⟨name, up, hplace, hentry⟩ := h.isEntry
  exact ⟨h.building.copied hinside hcopy,
    h.copyReady.grows hcopy.grows (hcopy.wellFormed h.copyReady.wellFormed),
    name, up, hplace, hentry.grows hcopy.grows⟩

/-- The directory of a copy stands after one of its entries was copied. -/
theorem CopyOpen.copied (h : CopyOpen ready place target base names disk)
    (hinside : Disk.Within place base)
    (hcopy : disk.Changes ((names ++ [name]).reverse ++ base <:+ ·)
      ((names ++ [name]).reverse ++ base <:+ ·) changed) :
    CopyOpen ready place target base names changed :=
  ⟨h.building.copied hinside hcopy, h.stands.grows hcopy.grows, hcopy.grows.dir h.dir⟩

/-- In the directory of a copy entries can be copied. -/
theorem CopyOpen.entry (h : CopyOpen ready place target base names disk)
    (hinside : Disk.Within place base) (wf : ready.WellFormed) (hlinks : ready.NoLinksBelow place)
    (hnames : ∀ name ∈ names, IsName name) (hname : IsName name) :
    CopyHere ready place target base (names ++ [name]) disk := by
  have hno : disk.NoLinksBelow base :=
    fun other up path hup => hlinks.grows h.building.grows other up path (hinside.1.trans hup)
  refine ⟨h.building, .entry (h.building.wellFormed wf) hno hnames h.stands hname,
    name, names.reverse ++ base, by simp, hname, h.dir,
    fun path => hno name _ path (List.suffix_append _ _), target.join (relativeText names), ?_,
    h.stands⟩
  rw [target.join_relativeText_concat hnames hname]
  exact Path.withoutSlashes_of_not_endsInSlash (Path.toList_join_ne_nil _ hname)
    (Path.endsInSlash_join _ hname)

/-! ### Directories and files -/

/-- The directory of a copy that is made on one disk is made on another one, too. -/
theorem makeDirs_again (hinside : Disk.Within place base)
    (halike : Disk.Alike (CopyHere ready place target base names) (names.reverse ++ base <:+ ·)
      session.disk other.disk)
    (hok : (session.disk.makeDirs (target.join (relativeText names))).1 = .ok ()) :
    (other.disk.makeDirs (target.join (relativeText names))).1 = .ok () ∧
      Disk.Alike (CopyOpen ready place target base names) (names.reverse ++ base <:+ ·)
        (session.disk.makeDirs (target.join (relativeText names))).2
        (other.disk.makeDirs (target.join (relativeText names))).2 := by
  obtain ⟨name, up, hplace, hentry⟩ := halike.left.isEntry
  obtain ⟨name', up', hplace', hentry'⟩ := halike.right.isEntry
  cases hplace.symm.trans hplace'
  have hhere : names.reverse ++ base <:+ name :: up := hplace ▸ List.suffix_rfl
  obtain ⟨hok', hagree, hdir⟩ := halike.agree.makeDirs hhere hentry hentry' hok
  have hdir' := (hagree.node _ hhere).trans hdir
  rw [← hplace] at hdir hdir'
  have hmade : ∀ {disk : Disk}, CopyHere ready place target base names disk →
      (disk.makeDirs (target.join (relativeText names))).1 = .ok () →
      (disk.makeDirs (target.join (relativeText names))).2.node? (names.reverse ++ base) = some .dir →
      CopyOpen ready place target base names (disk.makeDirs (target.join (relativeText names))).2 := by
    intro disk hdisk hok hdir
    obtain ⟨hchanges, hstands⟩ := makeDirs_target hdisk.copyReady
    refine ⟨hdisk.building.step hchanges ?_ fun _ => False.elim, hstands hok, hdir⟩
    rintro _ rfl
    exact hinside.suffix (List.suffix_append _ _)
  exact ⟨hok', hmade halike.left hok hdir, hmade halike.right hok' hdir', hagree⟩

/-- A file that can be copied is copied. -/
theorem copyOne_of_copyFile (hready : CopyReady session.disk target base names)
    (hcopy : session.disk.copyFile path (target.join (relativeText names)) = .ok changed) :
    ∃ after, (copyOne path (target.join (relativeText names)) (relativeText names)).run session =
      .ok () after ∧ after.disk = changed := by
  obtain ⟨parent, up, hparent, hstands⟩ := hready.stands
  refine ⟨{ session with disk := changed, log := session.log ++ [.copied (relativeText names)] }, ?_,
    rfl⟩
  have hchange : (Action.change CopyError.write
      (·.copyFile path (target.join (relativeText names)))).run session =
      .ok () { session with disk := changed } := Action.change_ok_iff.mpr ⟨changed, hcopy, rfl⟩
  rw [copyOne, hparent]
  refine (Action.run_bind_of_ok (Action.run_makeDirs hstands)).trans ?_
  exact Action.run_bind_of_ok hchange

/-- A file is read from the source, which is not where it is copied to. -/
theorem origin_ne_copy {origin : Location} {node : Node} (hinside : Disk.Within place base)
    (hlinks : ready.NoLinksBelow place) (hpath : PassesBy ready path place)
    (hdisk : Building ready place disk) {location : Location}
    (hhere : names.reverse ++ base <:+ location) (hstatus : disk.status path = .ok (origin, node)) :
    origin ≠ location := by
  rintro rfl
  rw [(Building.refl ready place).status_eq hdisk hlinks hpath] at hstatus
  refine hpath.staysOut [] _ (by simp) (Disk.pathLeads_of_status hstatus).1 ?_
  exact (hinside.1.trans (List.suffix_append _ _)).trans hhere

/-- A file of the source that is copied on one disk is copied on another one, too. -/
theorem copyOne_again {count : Nat} (hinside : Disk.Within place base)
    (hlinks : ready.NoLinksBelow place) (hpath : PassesBy ready path place)
    (halike : Disk.Alike (CopyHere ready place target base names) (names.reverse ++ base <:+ ·)
      session.disk other.disk)
    (hrun : (do
      copyOne path (target.join (relativeText names)) (relativeText names)
      return 1 : Action CopyError Nat).run session = .ok count after) :
    ∃ after', (do
      copyOne path (target.join (relativeText names)) (relativeText names)
      return 1 : Action CopyError Nat).run other = .ok count after' ∧
      Disk.AgreeOn (names.reverse ++ base <:+ ·) after.disk after'.disk := by
  obtain ⟨name, up, hplace, hentry⟩ := halike.left.isEntry
  obtain ⟨name', up', hplace', hentry'⟩ := halike.right.isEntry
  cases hplace.symm.trans hplace'
  have hhere : names.reverse ++ base <:+ name :: up := hplace ▸ List.suffix_rfl
  have hout : ∀ {disk : Disk}, Building ready place disk → ∀ origin node,
      disk.status path = .ok (origin, node) → origin ≠ name :: up :=
    fun hdisk origin node => origin_ne_copy hinside hlinks hpath hdisk hhere
  obtain ⟨value, copied, hone, hcount⟩ := Action.run_bind_ok_iff.mp hrun
  cases hcount
  have hcopy := copyOne_ok halike.left.copyReady hone
  obtain ⟨origin, bytes, hstatus, hwrite⟩ :=
    (hentry.copyFile_ok_iff (hout halike.left.building)).mp hcopy
  have hstatus' : other.disk.status path = .ok (origin, .file bytes) :=
    (halike.left.building.status_eq halike.right.building hlinks hpath).trans hstatus
  obtain ⟨hafter, hwrite'⟩ := halike.agree.write hhere hentry hentry' hwrite bytes
  obtain ⟨after', hone', hdisk'⟩ := copyOne_of_copyFile halike.right.copyReady
    ((hentry'.copyFile_ok_iff (hout halike.right.building)).mpr ⟨origin, bytes, hstatus', hwrite'⟩)
  refine ⟨after', Action.run_bind_ok_iff.mpr ⟨(), after', hone', rfl⟩, ?_⟩
  rw [hafter, hdisk']
  exact halike.agree.put name up _

/-! ### Trees -/

/-- A copy that succeeds changes its own place only. -/
theorem copyWithin_frame {order : ListingOrder} {depth count : Nat}
    (hready : CopyReady session.disk target base names)
    (hrun : (copyWithin order target depth above path (relativeText names)).run session =
      .ok count after) :
    session.disk.Changes (names.reverse ++ base <:+ ·) (names.reverse ++ base <:+ ·) after.disk := by
  have hchanges := @copyWithin_changes order target path base names above session depth hready
  rwa [hrun] at hchanges

/-- The places of the copies of different entries have nothing in common. -/
theorem copyRegions_apart {entries : List (String × Node)} (hnodup : (entries.map Prod.fst).Nodup) :
    Action.RegionsApart
      (fun entry location => (names ++ [entry.1]).reverse ++ base <:+ location) entries := by
  refine (List.pairwise_map.mp hnodup).imp fun hne location hfirst hsecond => hne ?_
  simp only [List.reverse_append, List.reverse_singleton,
    List.cons_append] at hfirst hsecond
  have hsame := List.suffix_of_suffix_length_le hfirst hsecond (by simp)
  exact (List.cons.inj (hsame.eq_of_length (by simp))).1

/-- The copy of an entry is a part of the copy of its directory. -/
theorem follows_of_entry {depth : Nat} (hinside : Disk.Within place base) (wf : ready.WellFormed)
    (hlinks : ready.NoLinksBelow place) (hnames : ∀ name ∈ names, IsName name) (hname : IsName name)
    (h : Action.Follows (CopyHere ready place target base (names ++ [name]))
      ((names ++ [name]).reverse ++ base <:+ ·)
      (copyWithin first target depth above path (relativeText (names ++ [name])))
      (copyWithin second target depth above path (relativeText (names ++ [name])))) :
    Action.Follows (CopyOpen ready place target base names) ((names ++ [name]).reverse ++ base <:+ ·)
      (copyWithin first target depth above path (entryBelow (relativeText names) name))
      (copyWithin second target depth above path (entryBelow (relativeText names) name)) := by
  rw [← relativeText_concat]
  intro session other count after halike hrun
  have hleft := halike.left.entry hinside wf hlinks hnames hname
  have hright := halike.right.entry hinside wf hlinks hnames hname
  obtain ⟨after', hrun', hafter⟩ := h ⟨hleft, hright, halike.agree⟩ hrun
  exact ⟨after', hrun', halike.left.copied hinside (copyWithin_frame hleft.copyReady hrun),
    halike.right.copied hinside (copyWithin_frame hright.copyReady hrun'), hafter.agree⟩

/-- The copy of an entry works at its own place. -/
theorem copyEntry_confined {depth : Nat} (hinside : Disk.Within place base) (wf : ready.WellFormed)
    (hlinks : ready.NoLinksBelow place) (hnames : ∀ name ∈ names, IsName name) (hname : IsName name)
    (h : Action.Follows (CopyHere ready place target base (names ++ [name]))
      ((names ++ [name]).reverse ++ base <:+ ·)
      (copyWithin first target depth above path (relativeText (names ++ [name])))
      (copyWithin first target depth above path (relativeText (names ++ [name])))) :
    Action.Confined (CopyOpen ready place target base names)
      ((names ++ [name]).reverse ++ base <:+ ·)
      (copyWithin first target depth above path (entryBelow (relativeText names) name)) := by
  refine ⟨fun hdisk hrun => ?_, follows_of_entry hinside wf hlinks hnames hname h⟩
  rw [← relativeText_concat] at hrun
  exact (copyWithin_frame (hdisk.entry hinside wf hlinks hnames hname).copyReady hrun).agreeOn
    (fun _ => id) fun _ => id

/-- If each entry of a directory is copied in one order as in the other one, then the entries are,
    as many of them and to the same places. -/
theorem copyEntries_again {depth : Nat} {entries : List (String × Node)} {counts : List Nat}
    (hinside : Disk.Within place base) (wf : ready.WellFormed) (hlinks : ready.NoLinksBelow place)
    (hnames : ∀ name ∈ names, IsName name) (hentries : ∀ entry ∈ entries, IsName entry.1)
    (hnodup : (entries.map Prod.fst).Nodup)
    (hcopy : ∀ (order order' : ListingOrder), ∀ entry ∈ entries,
      Action.Follows (CopyHere ready place target base (names ++ [entry.1]))
        ((names ++ [entry.1]).reverse ++ base <:+ ·)
        (copyWithin order target depth above (path.join entry.1) (relativeText (names ++ [entry.1])))
        (copyWithin order' target depth above (path.join entry.1)
          (relativeText (names ++ [entry.1]))))
    (hrun : ((first.arrange path entries).mapM fun entry =>
      copyWithin first target depth above (path.join entry.1)
        (entryBelow (relativeText names) entry.1)).run session = .ok counts after) (other : Session)
    (halike : Disk.Alike (CopyOpen ready place target base names) (names.reverse ++ base <:+ ·)
      session.disk other.disk) :
    ∃ counts' after', ((second.arrange path entries).mapM fun entry =>
        copyWithin second target depth above (path.join entry.1)
          (entryBelow (relativeText names) entry.1)).run other = .ok counts' after' ∧
      counts.Perm counts' ∧ Disk.AgreeOn (names.reverse ++ base <:+ ·) after.disk after'.disk := by
  have hfirst := first.perm path entries
  have hmem : ∀ entry ∈ first.arrange path entries, entry ∈ entries :=
    fun entry => hfirst.mem_iff.mp
  obtain ⟨counts', after', hrun', hperm, hafter⟩ := Action.mapM_reorder
    (hfirst.trans (second.perm path entries).symm)
    (copyRegions_apart ((hfirst.map _).nodup_iff.mpr hnodup))
    (fun entry h => copyEntry_confined hinside wf hlinks hnames (hentries entry (hmem entry h))
      (hcopy first first entry (hmem entry h)))
    (fun entry h => copyEntry_confined hinside wf hlinks hnames (hentries entry (hmem entry h))
      (hcopy second second entry (hmem entry h)))
    (fun entry h => follows_of_entry hinside wf hlinks hnames (hentries entry (hmem entry h))
      (hcopy first second entry (hmem entry h)))
    (fun _ _ _ => suffix_of_suffix_concat) hrun other halike
  exact ⟨counts', after', hrun', hperm, hafter.agree⟩

/-- **Copies.** What is copied in one listing order is copied in every other one, too. -/
theorem copyWithin_follows (hinside : Disk.Within place base) (wf : ready.WellFormed)
    (hlinks : ready.NoLinksBelow place) (depth : Nat) (hpath : PassesBy ready path place) :
    Action.Follows (CopyHere ready place target base names) (names.reverse ++ base <:+ ·)
      (copyWithin first target depth above path (relativeText names))
      (copyWithin second target depth above path (relativeText names)) := by
  induction depth generalizing first second above path names with
  | zero =>
    intro session other count after halike hrun
    cases hrun
  | succ depth ih =>
    intro session other count after halike hrun
    -- Both copies keep what is needed of the disks, so it is enough that the disks agree.
    suffices hagain : ∃ after',
        (copyWithin second target (depth + 1) above path (relativeText names)).run other =
          .ok count after' ∧
        Disk.AgreeOn (names.reverse ++ base <:+ ·) after.disk after'.disk by
      obtain ⟨after', hrun', hagree⟩ := hagain
      exact ⟨after', hrun',
        halike.left.copied hinside (copyWithin_frame halike.left.copyReady hrun),
        halike.right.copied hinside (copyWithin_frame halike.right.copyReady hrun'), hagree⟩
    rw [copyWithin] at hrun ⊢
    obtain ⟨⟨location, node⟩, start, hlook, hrun⟩ := Action.run_bind_ok_iff.mp hrun
    obtain ⟨hfollow, rfl⟩ := Action.look_ok_iff.mp hlook
    have hfollow' : followEntry above path other.disk = .ok (location, node) :=
      (halike.left.building.followEntry_eq halike.right.building hlinks hpath above).trans hfollow
    rw [Action.run_bind_of_ok (Action.look_ok_iff.mpr ⟨hfollow', rfl⟩)]
    cases node with
    | file bytes => exact copyOne_again hinside hlinks hpath halike hrun
    | link found => exact copyOne_again hinside hlinks hpath halike hrun
    | dir =>
      obtain ⟨_, made, hdirs, hrun⟩ := Action.run_bind_ok_iff.mp hrun
      obtain ⟨hok, rfl⟩ := Action.makeDirs_ok_iff.mp hdirs
      obtain ⟨hok', halike'⟩ := makeDirs_again hinside halike hok
      obtain ⟨entries, _, hlook, hrun⟩ := Action.run_bind_ok_iff.mp hrun
      obtain ⟨hlist, rfl⟩ := Action.look_ok_iff.mp hlook
      obtain ⟨counts, middle, hloop, hsum⟩ := Action.run_bind_ok_iff.mp hrun
      cases hsum
      have hlist' :=
        (halike'.left.building.list_eq halike'.right.building hlinks hpath).trans hlist
      have wf' := halike'.left.building.wellFormed wf
      obtain ⟨origin, -, hchildren⟩ := Disk.list_ok_iff.mp hlist
      have hentries : ∀ entry ∈ entries, IsName entry.1 := by
        intro entry hentry
        rw [hchildren, Disk.mem_children_iff wf'] at hentry
        exact wf'.isName hentry
      have hnodup : (entries.map Prod.fst).Nodup := by
        rw [hchildren]
        exact Disk.nodup_children wf' origin
      -- By the induction hypothesis each entry is copied alike, and no two to the same place.
      obtain ⟨counts', after', hloop', hperm, hagree⟩ := copyEntries_again hinside wf hlinks
        halike.left.copyReady.isName hentries hnodup
        (fun order order' entry hentry => ih (hpath.join (hentries entry hentry))) hloop
        { other with disk := (other.disk.makeDirs (target.join (relativeText names))).2 } halike'
      refine ⟨after', ?_, hagree⟩
      rw [hperm.foldr_eq]
      refine Action.run_bind_ok_iff.mpr ⟨(), _, Action.makeDirs_ok_iff.mpr ⟨hok', rfl⟩, ?_⟩
      refine Action.run_bind_ok_iff.mpr ⟨_, _, Action.look_ok_iff.mpr ⟨hlist', rfl⟩, ?_⟩
      exact Action.run_bind_ok_iff.mpr ⟨counts', after', hloop', rfl⟩

/-! ### Assets -/

variable {layout : SiteLayout} {tools : Toolchain} {on : Location → Prop}

/-- The assets can be copied into the output directory. -/
theorem OutputMade.copyHere (h : OutputMade ready layout place) (hdisk : Building ready place disk) :
    CopyHere ready place layout.outputAssets ("assets" :: place) [] disk := by
  have hname : IsName "assets" := by decide
  have hready := h.outputReady hdisk
  have hentry := h.isEntry hdisk hname
  refine ⟨hdisk, .root (hdisk.wellFormed h.wellFormed) hready.stands hready.noLinks hname,
    "assets", place, rfl, hname, hentry.dir, hentry.noLink, layout.output, ?_, hready.stands⟩
  exact Path.withoutSlashes_join_empty layout.output hname

/-- **Assets.** In another listing order the assets are copied, too, and nothing else is changed. -/
theorem copyAssets_reorder {count : Nat} (second : ListingOrder) (h : OutputMade ready layout place)
    (hon : ∀ location, "assets" :: place <:+ location → on location)
    (hrun : (copyAssets tools layout).run session = .ok count after) (other : Session)
    (halike : Disk.Alike (Building ready place) on session.disk other.disk) :
    ∃ after', (copyAssets { tools with order := second } layout).run other = .ok count after' ∧
      Disk.AgreeOn on after.disk after'.disk ∧
      Disk.AgreeOn (¬ "assets" :: place <:+ ·) session.disk after.disk ∧
      Disk.AgreeOn (¬ "assets" :: place <:+ ·) other.disk after'.disk := by
  have hassets : PassesBy ready layout.assetsDir place := h.source.join (by decide)
  have hinside : Disk.Within place ("assets" :: place) := Disk.within_cons List.suffix_rfl
  have hthere : other.disk.isThere? layout.assetsDir = session.disk.isThere? layout.assetsDir :=
    halike.left.isThere?_eq halike.right h.output.noLinks hassets
  rcases copyAssets_ok hrun with ⟨hyes, hcopy⟩ | ⟨hno, rfl, hdisk⟩
  · have hleft := h.copyHere halike.left
    have hright := h.copyHere halike.right
    obtain ⟨after', hcopy', hafter⟩ := copyWithin_follows hinside h.wellFormed h.output.noLinks
      (pathLimit + 1) hassets ⟨hleft, hright, halike.agree.mono hon⟩ hcopy
    have hframe := (copyWithin_frame hleft.copyReady hcopy).agreeOn (fun _ => id) fun _ => id
    have hframe' := (copyWithin_frame hright.copyReady hcopy').agreeOn (fun _ => id) fun _ => id
    refine ⟨after', ?_, ⟨?_, fun location hlocation => ?_⟩, hframe, hframe'⟩
    · refine Action.run_bind_ok_iff.mpr
        ⟨true, other, Action.look_ok_iff.mpr ⟨hthere.trans hyes, rfl⟩, ?_⟩
      exact Action.run_adapt_ok_iff.mpr hcopy'
    · exact hafter.agree.home
    · by_cases hbelow : "assets" :: place <:+ location
      · exact hafter.agree.node location hbelow
      · rw [hframe'.node location hbelow, halike.agree.node location hlocation,
          hframe.node location hbelow]
  · refine ⟨{ other with log := other.log ++ [.noAssets layout.assetsDir] }, ?_, ?_, ?_, .refl _ _⟩
    · exact Action.run_bind_ok_iff.mpr
        ⟨false, other, Action.look_ok_iff.mpr ⟨hthere.trans hno, rfl⟩, rfl⟩
    · rw [hdisk]
      exact halike.agree
    · rw [hdisk]
      exact .refl _ _

end PageLoom
