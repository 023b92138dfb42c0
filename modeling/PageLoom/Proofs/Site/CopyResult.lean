import PageLoom.Proofs.Site.CopyVisits

namespace PageLoom

/-!
# What a copy of a tree gives

A copy fails if it meets a link that dangles or leads back to where it is. If it succeeds it leaves
a copy of each directory and of each file that a path below its source leads to, and nothing else
changed. Whatever it does, it ends.

* `copyRoot_ok` — the copy of the source itself;
* `MeetsBadLink`, `CopiedTree` — why a copy fails, and what it leaves if it does not;
* `CopyDone` — what is known of a copy that succeeded;
* `copyTree_copies` — every copy of a tree ends, and fails or leaves just that;
* `copy_meets_source` — what can happen if the source has to do with the target.
-/

variable {start disk later : Disk} {order : ListingOrder} {source target path : Path}
  {base location place : Location} {names : List String} {name : String} {above : List Ancestor}
  {node : Node} {session after : Session} {depth count : Nat}

/-! ### Whole trees -/

/-- No file is written at a path that the empty text continues: it ends in a slash, or is empty. -/
theorem Disk.write_join_empty_ne {bytes : ByteArray} :
    disk.write (path.join "") bytes ≠ .ok later := by
  intro h
  by_cases hempty : path.text = ""
  · obtain ⟨place, hplace, -⟩ := Disk.write_located h
    have hfault := (Disk.locate_ok_iff.mp hplace).1
    rw [path.join_eq_lead (by simp), String.append_empty, Path.lead, hempty] at hfault
    cases hfault
  · rw [Disk.write, if_pos (path.endsInSlash_join_empty hempty)] at h
    obtain ⟨-, -, h⟩ := bind_ok_iff.mp h
    cases h

/-- A file is not copied to the root of a copy, which is a directory. -/
theorem copyOne_root_ne {relative : String} {value : Unit} :
    (copyOne path (target.join "") relative).run session ≠ .ok value after := by
  intro h
  obtain ⟨first, copied, hcopy⟩ : ∃ first copied : Disk,
      first.copyFile path (target.join "") = .ok copied := by
    rw [copyOne] at h
    cases hparent : (target.join "").parent? with
    | none =>
      rw [hparent] at h
      obtain ⟨_, _, hchange, -⟩ := Action.run_bind_ok_iff.mp h
      obtain ⟨copied, hcopy, -⟩ := Action.change_ok_iff.mp hchange
      exact ⟨_, copied, hcopy⟩
    | some parent =>
      rw [hparent] at h
      obtain ⟨_, _, -, h⟩ := Action.run_bind_ok_iff.mp h
      obtain ⟨_, _, hchange, -⟩ := Action.run_bind_ok_iff.mp h
      obtain ⟨copied, hcopy, -⟩ := Action.change_ok_iff.mp hchange
      exact ⟨_, copied, hcopy⟩
  rw [Disk.copyFile] at hcopy
  obtain ⟨_, -, hcopy⟩ := bind_ok_iff.mp hcopy
  obtain ⟨emptied, hwrite, -⟩ := bind_ok_iff.mp hcopy
  exact Disk.write_join_empty_ne hwrite

/-- **Roots.** A copy of a tree that succeeds copies a directory, into the directory that was made
    for it. -/
theorem copyRoot_ok
    (hrun : (copyWithin order target (depth + 1) [] source "").run session = .ok count after) :
    ∃ base location, ∃ made : Session, session.disk.PathLeads target base ∧
      session.disk.Changes (session.disk.Upwards target) (fun _ => False) made.disk ∧
      CopyingIn session.disk source target base [] [] location made.disk ∧
      (copyChildren order target depth [⟨location, source.joinAll []⟩] (source.joinAll [])
        (relativeText [])).run made = .ok count after := by
  rw [copyWithin] at hrun
  obtain ⟨⟨location, found⟩, looked, hlook, hrest⟩ := Action.run_bind_ok_iff.mp hrun
  obtain ⟨hfollow, hsame⟩ := Action.look_ok_iff.mp hlook
  cases hsame
  have hother : ∀ {relative : String},
      (copyOne source (target.join "") relative >>= fun _ => pure 1 : Action CopyError Nat).run
        session ≠ .ok count after := fun h => by
    obtain ⟨_, _, hone, -⟩ := Action.run_bind_ok_iff.mp h
    exact copyOne_root_ne hone
  cases found with
  | file bytes => exact absurd hrest hother
  | link path => exact absurd hrest hother
  | dir =>
    obtain ⟨_, made, hmake, hchildren⟩ := Action.run_bind_ok_iff.mp hrest
    obtain ⟨hmade, rfl⟩ := Action.makeDirs_ok_iff.mp hmake
    obtain ⟨base, hbase, hcopying⟩ := copyingIn_root hfollow hmade
    exact ⟨base, location, _, hbase, (session.disk.makeDirsUpTo_changes _ _).mono_dirs
      fun _ hplace => hplace.of_join_empty, hcopying, hchildren⟩

/-- Some path below the source meets a link that dangles, or leads back to a directory on the path. -/
def MeetsBadLink (disk : Disk) (source : Path) : Prop :=
  ∃ names name up link, (∀ other ∈ names, IsName other) ∧
    disk.PathLeads (source.joinAll names) up ∧ disk.node? (name :: up) = some (.link link) ∧
    ((∀ found, disk.status (source.joinAll (names ++ [name])) ≠ .ok found) ∨
      ∃ fewer place, fewer <+: names ∧ disk.PathLeads (source.joinAll fewer) place ∧
        disk.PathLeads (source.joinAll (names ++ [name])) place)

/-- What a copy of a tree leaves. Where names lead to a directory from the source, they lead to one
    from the target, and so with files, which hold the same bytes. The count is that of the names
    that lead to files. All else that was there is as it was, and nothing was made but the copies
    and the directories on the way to them. The source is as it was. -/
structure CopiedTree (before : Disk) (source target : Path) (count : Nat) (after : Disk) : Prop where
  dir : ∀ names, (∀ name ∈ names, IsName name) → before.HoldsDir (source.joinAll names) →
    after.HoldsDir (target.joinAll names)
  file : ∀ names bytes, (∀ name ∈ names, IsName name) →
    before.HoldsBytes (source.joinAll names) bytes → after.HoldsBytes (target.joinAll names) bytes
  count : ∃ files : List (List String), files.Nodup ∧ count = files.length ∧
    ∀ names, names ∈ files ↔
      (∀ name ∈ names, IsName name) ∧ ∃ bytes, before.HoldsBytes (source.joinAll names) bytes
  kept : ∀ location node, before.node? location = some node →
    (∀ names bytes, (∀ name ∈ names, IsName name) →
      before.HoldsBytes (source.joinAll names) bytes →
      ¬ before.PathLeads (target.joinAll names) location) →
    after.node? location = some node
  made : ∀ location, before.node? location = none → after.node? location ≠ none →
    before.Upwards target location ∨ ∃ names, (∀ name ∈ names, IsName name) ∧
      before.PathLeads (target.joinAll names) location ∧
      (before.HoldsDir (source.joinAll names) ∨
        ∃ bytes, before.HoldsBytes (source.joinAll names) bytes)
  source : ∀ names location, (∀ name ∈ names, IsName name) →
    before.PathLeads (source.joinAll names) location →
    after.node? location = before.node? location

/-- A copy was made: first the directory for it, on the disk `made`, and then the copies in it. It
    went all ways through the source. -/
structure CopyDone (start : Disk) (source target : Path) (base : Location)
    (files : List (List String × ByteArray)) (made after : Disk) : Prop where
  wellFormed : start.WellFormed
  apart : ApartFromCopy start source target base
  leads : start.PathLeads target base
  way : start.Changes (start.Upwards target) (fun _ => False) made
  ready : CopyInto start target base made
  into : CopyInto start target base after
  root : ∃ location, Reached start source [] [] location .dir
  visited : VisitedBelow start source base [] after
  copied : TreeCopied made source base after files

/-- A copy that succeeds was made. -/
theorem copyDone_of_ok (wf : session.disk.WellFormed)
    (hhome : session.disk.node? session.disk.home = some .dir)
    (hapart : ∀ base, session.disk.PathLeads target base →
      ApartFromCopy session.disk source target base)
    (hrun : (copyWithin order target (depth + 1) [] source "").run session = .ok count after) :
    ∃ base files made, CopyDone session.disk source target base files made after.disk ∧
      count = files.length := by
  obtain ⟨base, location, made, hbase, hway, hcopying, hchildren⟩ := copyRoot_ok hrun
  replace hapart := hapart base hbase
  have hready := hcopying.into
  have hvisited := copyChildren_visits wf hapart hhome hcopying
    (fun _ _ _ _ _ hentry hnow hround => copyEntry_visits wf hapart hhome hnow hentry hround)
    hchildren
  obtain ⟨entries, counts, hlist, hloop, hcount⟩ := copyChildren_ok hchildren
  obtain ⟨files, hfiles, hsum⟩ := copyDirectory_ok (hready.wellFormed wf)
    (hapart.noLinks.grows hready.grows) (by simp) (hapart.staysOut.grows hready.grows)
    hcopying.stands ((hready.grows.pathLeads_iff _).mpr hcopying.reached.pathLeads.1) hlist
    (fun _ _ _ _ hentry hout hround => copyWithin_ok hentry hout hround) hloop
  have hinto : CopyInto session.disk target base after.disk := hready.step <| hfiles.changes.mono
    (fun _ ⟨names, _, _, _, _, _, hplace⟩ => hplace ▸ List.suffix_append _ _)
    fun _ ⟨names, _, _, hplace⟩ => hplace ▸ List.suffix_append _ _
  exact ⟨base, files, made.disk, ⟨wf, hapart, hbase, hway, hready, hinto, ⟨_, hcopying.reached⟩,
    hvisited, hfiles⟩, hcount.trans hsum⟩

namespace CopyDone

variable {made : Disk} {files : List (List String × ByteArray)}
  (h : CopyDone start source target base files made disk)

include h

/-- What the source leads to was reached. -/
theorem reached (hnames : ∀ name ∈ names, IsName name)
    (hleads : start.PathLeads (source.joinAll names) place) (hnode : start.node? place = some node) :
    ∃ above, Reached start source names above place node := by
  obtain ⟨location, hroot⟩ := h.root
  exact h.visited.reached h.wellFormed hroot hnames hleads hnode

/-- On the way no link was bad. -/
theorem not_meetsBadLink : ¬ MeetsBadLink start source := by
  rintro ⟨names, name, up, link, hnames, hup, hlink, hbad⟩
  have hname := h.wellFormed.isName hlink
  obtain ⟨above, hreached⟩ := h.reached hnames hup (h.wellFormed.parent hlink)
  -- The walk was there, so it followed the link.
  obtain ⟨place, found, hlast⟩ := (h.visited names above up hreached).2 name _ hlink
  rcases hbad with hdangles | ⟨fewer, ancestor, hfewer, hancestor, hleads⟩
  · exact hdangles _ hlast.status
  · cases hlast.pathLeads.1.unique hleads
    have hmem := hreached.mem_wayTo hfewer hancestor
    cases hlast.pathLeads.2.symm.trans (hreached.dir_of_mem_wayTo _ hmem)
    obtain ⟨before, up', entry, hup', -, habove, hfollow⟩ := hlast.of_concat
    cases habove
    rw [Path.joinAll_concat] at hfollow
    rcases followEntry_cases hname hreached.status hfollow with rfl | hnew
    · cases hlink.symm.trans hlast.pathLeads.2
    · exact hnew hmem

/-- The copied files are those that the source leads to. -/
theorem mem_files_iff {bytes : ByteArray} : (names, bytes) ∈ files ↔
    (∀ name ∈ names, IsName name) ∧ start.HoldsBytes (source.joinAll names) bytes := by
  rw [h.copied.mem_iff, true_and]
  refine and_congr_right fun hnames => exists_congr fun place => ?_
  rw [h.ready.grows.pathLeads_iff]
  exact and_congr_right fun hleads => by rw [h.ready.node_eq h.apart hnames hleads]

/-- Each copied directory stands. -/
theorem node_dir (hnames : ∀ name ∈ names, IsName name)
    (hdir : start.HoldsDir (source.joinAll names)) :
    disk.node? (names.reverse ++ base) = some .dir := by
  obtain ⟨place, hleads, hnode⟩ := hdir
  obtain ⟨above, hreached⟩ := h.reached hnames hleads hnode
  exact (h.visited names above place hreached).1

/-- What was copied is where the names lead from the target. -/
theorem leads_copy (hnames : ∀ name ∈ names, IsName name)
    (hnode : disk.node? (names.reverse ++ base) = some node) (hother : ∀ path, node ≠ .link path) :
    start.PathLeads (target.joinAll names) (names.reverse ++ base) := by
  refine (Disk.pathLeads_joinAll hnames).mpr ⟨base, h.leads, ?_⟩
  exact h.into.grows.leads_iff.mp
    (Disk.leads_of_node? (h.into.wellFormed h.wellFormed) hnode hother)

/-- The names of a copied file lead to it. -/
theorem leads_file {bytes : ByteArray} (hmem : (names, bytes) ∈ files) :
    start.PathLeads (target.joinAll names) (names.reverse ++ base) :=
  h.leads_copy (h.mem_files_iff.mp hmem).1 (h.copied.copied names bytes hmem) (by simp)

/-- What was there stays, if no file was copied there. -/
theorem node_kept (hnode : start.node? location = some node)
    (hfree : ∀ names bytes, (names, bytes) ∈ files →
      ¬ start.PathLeads (target.joinAll names) location) : disk.node? location = some node := by
  have hmade : made.node? location = some node := by
    rcases h.way.node location with hsame | ⟨-, hnone, -⟩ | ⟨hno, -⟩
    · rwa [hsame]
    · cases hnone.symm.trans hnode
    · exact hno.elim
  rcases h.copied.changes.node location with hsame | ⟨-, hnone, -⟩ | ⟨⟨names, bytes, hmem, rfl⟩, -⟩
  · rwa [hsame]
  · cases hnone.symm.trans hmade
  · exact absurd (h.leads_file hmem) (hfree names bytes hmem)

/-- What is new leads to the copy, or is a part of it. -/
theorem of_new (hnone : start.node? location = none) (hnew : disk.node? location ≠ none) :
    start.Upwards target location ∨ ∃ names, (∀ name ∈ names, IsName name) ∧
      start.PathLeads (target.joinAll names) location ∧
      (start.HoldsDir (source.joinAll names) ∨
        ∃ bytes, start.HoldsBytes (source.joinAll names) bytes) := by
  rcases h.way.node location with hsame | ⟨hway, -⟩ | ⟨hno, -⟩
  · rw [hnone] at hsame
    rcases h.copied.changes.node location with hsame' |
      ⟨⟨names, origin, -, hnames, hleads, hnode, rfl⟩, -⟩ | ⟨⟨names, bytes, hmem, rfl⟩, -⟩
    · exact absurd (hsame'.trans hsame) hnew
    · have hleads' := (h.ready.grows.pathLeads_iff _).mp hleads
      have hdir : start.HoldsDir (source.joinAll names) :=
        ⟨origin, hleads', (h.ready.node_eq h.apart hnames hleads').symm.trans hnode⟩
      exact .inr ⟨names, hnames, h.leads_copy hnames (h.node_dir hnames hdir) (by simp), .inl hdir⟩
    · obtain ⟨hnames, hholds⟩ := h.mem_files_iff.mp hmem
      exact .inr ⟨names, hnames, h.leads_file hmem, .inr ⟨bytes, hholds⟩⟩
  · exact .inl hway
  · exact hno.elim

/-- **Copies.** What a copy leaves. -/
theorem copiedTree : CopiedTree start source target files.length disk where
  dir names hnames hdir := by
    have hnode := h.node_dir hnames hdir
    exact ⟨_, (h.into.grows.pathLeads_iff _).mpr (h.leads_copy hnames hnode (by simp)), hnode⟩
  file names bytes hnames hholds := by
    have hmem := h.mem_files_iff.mpr ⟨hnames, hholds⟩
    exact ⟨_, (h.into.grows.pathLeads_iff _).mpr (h.leads_file hmem), h.copied.copied names bytes hmem⟩
  count := by
    refine ⟨files.map Prod.fst, h.copied.nodup, (List.length_map _).symm, fun names => ?_⟩
    simp only [List.mem_map, Prod.exists, exists_and_right, exists_eq_right, h.mem_files_iff,
      exists_and_left]
  kept location node hnode hfree := h.node_kept hnode fun names bytes hmem =>
    hfree names bytes (h.mem_files_iff.mp hmem).1 (h.mem_files_iff.mp hmem).2
  made location hnone hnew := h.of_new hnone hnew
  source names location hnames hleads := h.into.node_eq h.apart hnames hleads

end CopyDone

/-- **Tree copies.** For every tree with links of any kind, and every target that the source and its
    ways have nothing to do with, a copy of the tree ends: it goes no deeper than the walk bound of
    the disk. It fails if the source leads nowhere, or if a link in the tree dangles or leads back
    to a directory on its path. If it succeeds it leaves a copy of the tree, and nothing else
    changed. -/
theorem copyTree_copies (order : ListingOrder) (source target : Path) (session : Session)
    (wf : session.disk.WellFormed) (hfits : session.disk.NamesFit)
    (hhome : session.disk.node? session.disk.home = some .dir)
    (hapart : ∀ base, session.disk.PathLeads target base →
      ApartFromCopy session.disk source target base) :
    (∀ depth, session.disk.walkBound < depth →
      (copyWithin order target depth [] source "").run session =
        (copyTree order source target).run session) ∧
    ((∀ found, session.disk.status source ≠ .ok found) ∨ MeetsBadLink session.disk source →
      ∃ e after, (copyTree order source target).run session = .error e after) ∧
    ∀ count after, (copyTree order source target).run session = .ok count after →
      CopiedTree session.disk source target count after.disk := by
  refine ⟨fun depth hdepth => copyTree_ample wf hfits hapart hdepth, fun hbad => ?_,
    fun count after hrun => ?_⟩
  · cases hrun : (copyTree order source target).run session with
    | error e after => exact ⟨e, after, rfl⟩
    | ok count after =>
      obtain ⟨base, files, made, hdone, -⟩ := copyDone_of_ok wf hhome hapart hrun
      rcases hbad with hnowhere | hbad
      · obtain ⟨location, hroot⟩ := hdone.root
        exact absurd hroot.status (hnowhere _)
      · exact absurd hbad hdone.not_meetsBadLink
  · obtain ⟨base, files, made, hdone, rfl⟩ := copyDone_of_ok wf hhome hapart hrun
    exact hdone.copiedTree

/-- A tree with a directory that a link leads to, too, and a directory to copy it to. -/
def sharedTree : Disk where
  home := []
  nodes :=
    [(["src"], .dir), (["img", "src"], .dir), (["logo", "img", "src"], .file "x".toUTF8),
      (["icons", "src"], .link ⟨"img"⟩), (["dst"], .dir), (["old", "dst"], .file "y".toUTF8)]

theorem sharedTree_wellFormed : sharedTree.WellFormed := by
  refine ⟨?_, ?_, ?_⟩ <;> decide +kernel

theorem sharedTree_namesFit : sharedTree.NamesFit := by
  unfold Disk.NamesFit
  decide +kernel

/-- The only link of the shared tree. -/
theorem sharedTree_link {link : Path} (h : sharedTree.node? (name :: location) = some (.link link)) :
    location = ["src"] ∧ link = ⟨"img"⟩ := by
  have hmem := Disk.mem_nodes_of_node? (List.cons_ne_nil _ _) h
  simp [sharedTree] at hmem
  exact ⟨hmem.1.2, hmem.2⟩

/-- The source in the shared tree has nothing to do with the target. -/
theorem sharedTree_apart (hbase : sharedTree.PathLeads ⟨"dst"⟩ base) :
    ApartFromCopy sharedTree ⟨"src"⟩ ⟨"dst"⟩ base := by
  have hdst : sharedTree.status ⟨"dst"⟩ = .ok (["dst"], .dir) := by decide +kernel
  have hsrc : sharedTree.status ⟨"src"⟩ = .ok (["src"], .dir) := by decide +kernel
  have hsteps : (⟨"src"⟩ : Path).steps = [.down "src"] := by decide
  replace hdst := (Disk.pathLeads_of_status hdst).1
  cases hbase.unique hdst
  refine apartFromCopy_of_linksDown (fun name up link hup hlink => ?_)
    (fun name up link hup hlink => ?_) (Disk.pathLeads_of_status hsrc).1 (by decide) (by decide)
    (fun passed hpasses _ => ?_) fun passed hupwards hpassed => ?_
  · obtain ⟨rfl, -⟩ := sharedTree_link hlink
    exact absurd hup (by decide)
  · obtain ⟨-, rfl⟩ := sharedTree_link hlink
    decide
  · -- The path of the source passes the directory that it starts in, and the source.
    rw [Disk.PathPasses, hsteps] at hpasses
    cases hpasses with
    | here => decide
    | down _ h =>
      cases h
      decide
    | link hlink h => exact absurd (sharedTree_link hlink).1 (by decide)
  · -- The target and the directory that it is in are not below the source.
    obtain ⟨upper, habove, hleads⟩ := hupwards
    cases habove with
    | self =>
      cases hleads.unique hdst
      exact absurd hpassed (by decide)
    | step hparent habove =>
      cases (by decide : (⟨"dst"⟩ : Path).parent? = some ⟨""⟩).symm.trans hparent
      cases habove with
      | self =>
        cases hleads.unique (Disk.StandsAt.pathLeads (.inl ⟨rfl, rfl⟩))
        exact absurd hpassed (by decide)
      | step hparent => cases hparent

/-- The copy of the shared tree holds the file twice. -/
theorem copyTree_copies_shared :
    ∃ after, (copyTree .stored ⟨"src"⟩ ⟨"dst"⟩).run ⟨sharedTree, []⟩ = .ok 2 after ∧
      CopiedTree sharedTree ⟨"src"⟩ ⟨"dst"⟩ 2 after.disk := by
  have hcount : (match (copyTree .stored ⟨"src"⟩ ⟨"dst"⟩).run ⟨sharedTree, []⟩ with
      | .ok count _ => some count
      | .error _ _ => none) = some 2 := by
    decide +kernel
  cases hrun : (copyTree .stored ⟨"src"⟩ ⟨"dst"⟩).run ⟨sharedTree, []⟩ with
  | error e after =>
    rw [hrun] at hcount
    cases hcount
  | ok count after =>
    rw [hrun] at hcount
    cases hcount
    exact ⟨after, rfl, (copyTree_copies .stored ⟨"src"⟩ ⟨"dst"⟩ ⟨sharedTree, []⟩
      sharedTree_wellFormed sharedTree_namesFit rfl fun base => sharedTree_apart).2.2 2 after hrun⟩

/-- If no entry of the source is followed to a directory, the source is all that the walk reaches. -/
theorem Reached.eq_root {origin : Location} (wf : disk.WellFormed)
    (hroot : disk.status source = .ok (origin, .dir))
    (hentries : ∀ entry ∈ disk.children origin,
      (disk.status (source.join entry.1)).toOption.map Prod.snd ≠ some .dir)
    (h : Reached disk source names above location .dir) : names = [] ∧ location = origin := by
  generalize hnode : Node.dir = node at h
  induction h with
  | root hfollow =>
    cases hroot.symm.trans (status_of_followEntry hfollow)
    exact ⟨rfl, rfl⟩
  | @entry names above up location name entry node hup hentry hfollow ih =>
    obtain ⟨rfl, rfl⟩ := ih rfl
    refine absurd ?_ (hentries (name, entry) ((Disk.mem_children_iff wf).mpr hentry))
    have hstatus : disk.status (source.join name) = .ok (location, node) :=
      status_of_followEntry hfollow
    rw [hstatus, ← hnode]
    rfl

/-- A tree with a link from the source to a file where the copy is made. -/
def linkedTree : Disk where
  home := []
  nodes :=
    [(["src"], .dir), (["dst"], .dir), (["logo", "dst"], .file "x".toUTF8),
      (["logo", "src"], .link ⟨"../dst/logo"⟩)]

/-- A tree with a link from the source to a file, on a way through the place of the copy. -/
def throughTree : Disk where
  home := []
  nodes :=
    [(["src"], .dir), (["other"], .file "x".toUTF8), (["logo", "src"], .link ⟨"../dst/../other"⟩)]

/-- A tree with one file in its source. -/
def plainTree : Disk where
  home := []
  nodes := [(["src"], .dir), (["logo", "src"], .file "x".toUTF8)]

/-- **Where copies meet their source.** It is not enough that no directory which the walk reaches has
    to do with the target. A file that a link in the source leads to is emptied, if its own copy is
    made there. A link that dangles before the copy is followed, if the copy makes a directory that
    is missing on its way. And on the way to the target directories are made in the source. -/
theorem copy_meets_source :
    ((∀ names above location, Reached linkedTree ⟨"src"⟩ names above location .dir →
        location = ["src"]) ∧ linkedTree.NoLinksBelow ["dst"] ∧
      let result := (copyTree .stored ⟨"src"⟩ ⟨"dst"⟩).run ⟨linkedTree, []⟩
      failure? result = none ∧ linkedTree.readBytes ⟨"src/logo"⟩ = .ok "x".toUTF8 ∧
        (finalDisk result).readBytes ⟨"dst/logo"⟩ = .ok .empty ∧ "x".toUTF8 ≠ .empty) ∧
    ((∀ names above location, Reached throughTree ⟨"src"⟩ names above location .dir →
        location = ["src"]) ∧ throughTree.node? ["dst"] = none ∧
      throughTree.status ⟨"src/logo"⟩ = .error .notFound ∧
      failure? ((copyTree .stored ⟨"src"⟩ ⟨"dst"⟩).run ⟨throughTree, []⟩) = none) ∧
    (∀ names above location, Reached plainTree ⟨"src"⟩ names above location .dir →
        location = ["src"]) ∧ plainTree.PathLeads ⟨"src/new/../../out"⟩ ["out"] ∧
      plainTree.node? ["out"] = none ∧ plainTree.node? ["new", "src"] = none ∧
      (finalDisk ((copyTree .stored ⟨"src"⟩ ⟨"src/new/../../out"⟩).run ⟨plainTree, []⟩)).node?
        ["new", "src"] = some .dir := by
  refine ⟨⟨fun names above location hreached => ?_, fun name up link hup hlink => ?_,
      by decide +kernel, by decide +kernel, by decide +kernel, by decide⟩,
    ⟨fun names above location hreached => ?_, by decide, by decide +kernel, by decide +kernel⟩,
    fun names above location hreached => ?_, ?_, by decide, by decide, by decide +kernel⟩
  · have wf : linkedTree.WellFormed := by refine ⟨?_, ?_, ?_⟩ <;> decide +kernel
    exact (hreached.eq_root wf (by decide +kernel) (by decide +kernel)).2
  · have hmem := Disk.mem_nodes_of_node? (List.cons_ne_nil _ _) hlink
    simp [linkedTree] at hmem
    obtain ⟨⟨-, rfl⟩, -⟩ := hmem
    exact absurd hup (by decide)
  · have wf : throughTree.WellFormed := by refine ⟨?_, ?_, ?_⟩ <;> decide +kernel
    exact (hreached.eq_root wf (by decide +kernel) (by decide +kernel)).2
  · have wf : plainTree.WellFormed := by refine ⟨?_, ?_, ?_⟩ <;> decide +kernel
    exact (hreached.eq_root wf (by decide +kernel) (by decide +kernel)).2
  · have hno : ∀ location, plainTree.NoLinksBelow location :=
      Disk.noLinksBelow_of_nodes (by simp [plainTree])
    have hdown : ∀ name up, ∀ path, plainTree.node? (name :: up) ≠ some (.link path) :=
      fun name up path => hno up name up path List.suffix_rfl
    have hsteps : (⟨"src/new/../../out"⟩ : Path).steps =
        [.down "src", .down "new", .up, .up, .down "out"] := by decide
    rw [Disk.PathLeads, hsteps]
    exact .down (hdown _ _) (.down (hdown _ _) (.up (.up (.down (hdown _ _) (.here _)))))

end PageLoom
