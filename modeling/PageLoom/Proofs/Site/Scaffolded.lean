import PageLoom.Proofs.Disk.Straight
import PageLoom.Proofs.Site.Copy
import PageLoom.Proofs.Site.Init

namespace PageLoom

/-!
# What a new site holds

In a home directory with nothing in it, setting up a site that succeeds leaves just the files of the
site and the directories above them.

* `sourceTree` — the files of the source tree, each with the names that lead to it;
* `createFile_new`, `createFiles_new` — creating files where nothing is;
* `Scaffolded` — a home directory with a new site, and nothing else;
* `scaffolded_of_init` — what setting up a site leaves.
-/

variable {disk : Disk} {path : Path} {names : List String} {name text : String} {overwrite : Bool}
  {session after : Session}

/-! ### Creating files -/

/-- The place is passed on the way down the names. -/
def OnTheWay (home : Location) (names : List String) (location : Location) : Prop :=
  ∃ first, first <+: names ∧ location = first.reverse ++ home

/-- **One new file.** Where no links are, a file that is created at a place where nothing was is
    there after. Else only directories are made, on the way to it. -/
theorem createFile_new (hno : session.disk.NoLinksBelow session.disk.home)
    (hpath : path.GoesDown names)
    (hnew : session.disk.node? (names.reverse ++ session.disk.home) = none)
    (hrun : (createFile overwrite path text).run session = .ok () after) :
    session.disk.Changes (OnTheWay session.disk.home names)
        (· = names.reverse ++ session.disk.home) after.disk ∧
      after.disk.node? (names.reverse ++ session.disk.home) = some (.file text.toUTF8) := by
  have hchanges := createFile_changes overwrite path text session
  rw [hrun] at hchanges
  refine ⟨hchanges.mono (fun _ => hpath.eq_of_leadsAbove hno)
    fun _ => hpath.eq_of_pathLeads hno, ?_⟩
  obtain ⟨hthere, -⟩ | ⟨-, ⟨e, hfails⟩ | ⟨middle, written, hmade, hwrite, hdone⟩⟩ :=
    createFile_cases overwrite path text session
  · obtain ⟨node, hnode⟩ := hpath.node?_of_isThere hno hthere
    rw [hnew] at hnode
    cases hnode
  · rw [hrun] at hfails
    cases hfails
  · rw [hrun] at hdone
    cases hdone
    obtain ⟨place, hleads, hfits, rfl⟩ := Disk.write_ok hwrite
    have hgrows := (session.disk.makeParents_changes path).grows
    rw [hmade] at hgrows
    -- Making directories does not change where the path leads.
    have hplace := hpath.eq_of_pathLeads hno ((hgrows.pathLeads_iff path).mp hleads)
    obtain ⟨last, up, rfl⟩ := hfits.exists_cons
    rw [← hplace]
    exact Disk.node?_put_self ..

/-- **New files.** Files that are created one after the other at places where nothing was are all
    there after, if no later one stands on the way to an earlier one. -/
theorem createFiles_new {pathOf : List String → Path} {entries : List (List String × String)}
    (hpaths : ∀ entry ∈ entries, (pathOf entry.1).GoesDown entry.1)
    (hapart : entries.Pairwise fun entry later => ¬ later.1 <+: entry.1)
    (hno : session.disk.NoLinksBelow session.disk.home)
    (hnew : ∀ entry ∈ entries,
      session.disk.node? (entry.1.reverse ++ session.disk.home) = none)
    (hrun : (entries.forM fun entry => createFile overwrite (pathOf entry.1) entry.2).run session =
      .ok () after) :
    session.disk.Changes
        (fun location => ∃ entry ∈ entries, OnTheWay session.disk.home entry.1 location)
        (fun location => ∃ entry ∈ entries, location = entry.1.reverse ++ session.disk.home)
        after.disk ∧
      ∀ entry ∈ entries, after.disk.isThere (pathOf entry.1) = true ∧
        after.disk.node? (entry.1.reverse ++ session.disk.home) = some (.file entry.2.toUTF8) := by
  induction entries generalizing session with
  | nil =>
    cases hrun
    exact ⟨.refl _, fun _ hentry => absurd hentry List.not_mem_nil⟩
  | cons first entries ih =>
    obtain ⟨_, middle, hfirst, hmore⟩ := Action.run_bind_ok_iff.mp hrun
    obtain ⟨hpath, hpaths⟩ := List.forall_mem_cons.mp hpaths
    obtain ⟨hlater, hapart⟩ := List.pairwise_cons.mp hapart
    obtain ⟨hnone, hnew⟩ := List.forall_mem_cons.mp hnew
    obtain ⟨hchanges, hnode⟩ := createFile_new hno hpath hnone hfirst
    have hhome := hchanges.grows.home
    -- The first file leaves the places of the others free.
    have hfree : ∀ entry ∈ entries,
        middle.disk.node? (entry.1.reverse ++ middle.disk.home) = none := by
      intro entry hentry
      rw [hhome, hchanges.node_eq, hnew entry hentry]
      · rintro ⟨upper, hupper, hsame⟩
        exact hlater entry hentry (eq_of_reverse_append_eq hsame ▸ hupper)
      · intro hsame
        exact hlater entry hentry (eq_of_reverse_append_eq hsame ▸ List.prefix_rfl)
    have hnoMiddle : middle.disk.NoLinksBelow middle.disk.home := by
      rw [hhome]
      exact hno.grows hchanges.grows
    obtain ⟨hothers, hnodes⟩ := ih hpaths hapart hnoMiddle hfree hmore
    rw [hhome] at hothers hnodes
    refine ⟨Disk.Changes.trans (hchanges.mono ?_ ?_) (hothers.mono ?_ ?_), ?_⟩
    · exact fun location hway => ⟨first, List.mem_cons_self, hway⟩
    · exact fun location hplace => ⟨first, List.mem_cons_self, hplace⟩
    · exact fun location ⟨entry, hentry, hway⟩ => ⟨entry, List.mem_cons_of_mem _ hentry, hway⟩
    · exact fun location ⟨entry, hentry, hplace⟩ => ⟨entry, List.mem_cons_of_mem _ hentry, hplace⟩
    · refine List.forall_mem_cons.mpr ⟨⟨hothers.grows.isThere (createFile_ok hfirst), ?_⟩, hnodes⟩
      -- The others leave the first file as it is.
      rw [hothers.node_iff ?_ (by simp)]
      · exact hnode
      · rintro ⟨entry, hentry, hsame⟩
        exact hlater entry hentry (eq_of_reverse_append_eq hsame ▸ List.prefix_rfl)

/-- Loops that do the same for each of some entries do the same. -/
theorem forM_map_congr {α β γ ε : Type} {f : β → Action ε Unit} {g : γ → Action ε Unit}
    {left : α → β} {right : α → γ} {entries : List α}
    (hsame : ∀ entry ∈ entries, f (left entry) = g (right entry)) :
    (entries.map left).forM f = (entries.map right).forM g := by
  induction entries with
  | nil => rfl
  | cons entry entries ih =>
    obtain ⟨hfirst, hmore⟩ := List.forall_mem_cons.mp hsame
    show (f (left entry) >>= fun _ => (entries.map left).forM f) =
      g (right entry) >>= fun _ => (entries.map right).forM g
    rw [hfirst, ih hmore]

/-! ### The files of a new site -/

/-- The files of the source tree, with the names that lead to them from the source directory. -/
def sourceTree : List (List String × String) :=
  [(["pages", "index.html"], Scaffold.indexPage),
   (["pages", "about.md"], Scaffold.aboutPage),
   (["parts", "head", "head.html"], Scaffold.headPart),
   (["parts", "header", "header.html"], Scaffold.headerPart),
   (["parts", "sidebar", "sidebar.html"], Scaffold.sidebarPart),
   (["parts", "footer", "footer.html"], Scaffold.footerPart),
   (["parts", "script", "script.html"], Scaffold.scriptPart),
   (["parts", "script", "main.js"], Scaffold.script),
   (["style", "style.css"], Scaffold.stylesheet),
   (["assets", "robots.txt"], Scaffold.robots)]

/-- The files of a new site, with the names that lead to them from the home. -/
def siteTree (name : String) : List (List String × String) :=
  ([name], Scaffold.config (.ofPath ⟨name⟩)) ::
    sourceTree.map fun entry => ("src" :: entry.1, entry.2)

/-- All names in the source tree can be spelled. -/
theorem isName_of_mem_sourceTree :
    ∀ entry ∈ sourceTree, entry.1 ≠ [] ∧ ∀ name ∈ entry.1, IsName name := by
  simp only [sourceTree, List.forall_mem_cons]
  decide

/-- The source tree is what is written for a new site. -/
theorem files_eq_sourceTree :
    Scaffold.files = sourceTree.map fun entry => (relativeText entry.1, entry.2) := by
  rfl

/-- No file of a new site stands on the way to another one. -/
theorem siteTree_apart (name : String) :
    (siteTree name).Pairwise fun entry later => ¬ later.1 <+: entry.1 := by
  have hsource : sourceTree.Pairwise fun entry later => ¬ later.1 <+: entry.1 := by
    simp [sourceTree, List.cons_prefix_cons]
  refine List.pairwise_cons.mpr ⟨?_, List.pairwise_map.mpr (hsource.imp ?_)⟩
  · rintro later hlater hprefix
    obtain ⟨entry, hentry, rfl⟩ := List.mem_map.mp hlater
    -- The configuration stands right in the home, all else further down.
    have hlength := hprefix.length_le
    have hne := List.length_pos_of_ne_nil (isName_of_mem_sourceTree entry hentry).1
    simp only [List.length_cons, List.length_nil] at hlength
    omega
  · intro entry later hapart hprefix
    exact hapart (List.cons_prefix_cons.mp hprefix).2

/-- The path of a file of a new site, from the names that lead to it. -/
def sitePath (names : List String) : Path :=
  (⟨"."⟩ : Path).joinAll names

/-- Such a path goes down by the names. -/
theorem sitePath_goesDown (h : ∀ name ∈ names, IsName name) : (sitePath names).GoesDown names := by
  suffices hmore : ∀ (path : Path) (done : List String), path.GoesDown done →
      (path.joinAll names).GoesDown (done ++ names) from
    hmore ⟨"."⟩ [] (by decide)
  induction names with
  | nil =>
    intro path done hpath
    rwa [List.append_nil]
  | cons name names ih =>
    intro path done hpath
    obtain ⟨hname, hmore⟩ := List.forall_mem_cons.mp h
    rw [List.append_cons]
    exact ih hmore _ _ (hpath.join hname)

/-- The paths of a new site go down by the names of its files. -/
theorem siteTree_goesDown (hname : IsName name) :
    ∀ entry ∈ siteTree name, (sitePath entry.1).GoesDown entry.1 := by
  refine List.forall_mem_cons.mpr ⟨sitePath_goesDown (by simpa using hname), ?_⟩
  intro later hlater
  obtain ⟨entry, hentry, rfl⟩ := List.mem_map.mp hlater
  exact sitePath_goesDown
    (List.forall_mem_cons.mpr ⟨by decide, (isName_of_mem_sourceTree entry hentry).2⟩)

/-- Where there is no source tree, setting up a site creates its files one after the other. -/
theorem runInit_eq (name : String) {log : List Event} (hsource : disk.isThere siteSource = false)
    (hrun : (runInit ⟨name⟩ overwrite).run ⟨disk, log⟩ = .ok () after) :
    ∃ middle, ((siteTree name).forM fun entry =>
        createFile overwrite (sitePath entry.1) entry.2).run ⟨disk, log ++ [.initializing]⟩ =
          .ok () middle ∧ after.disk = middle.disk := by
  rw [runInit, Action.run_tell_bind, Action.run_bind_ok_iff] at hrun
  obtain ⟨_, middle, hcreate, htold⟩ := hrun
  cases htold
  rw [createSite_eq, hsource, Bool.false_and, if_neg Bool.false_ne_true, files_eq_sourceTree]
    at hcreate
  -- A path below the source directory is written in one piece.
  have hfiles : (sourceTree.map fun entry => ("src" :: entry.1, entry.2)).forM
        (fun entry => createFile overwrite (sitePath entry.1) entry.2) =
      (sourceTree.map fun entry => (relativeText entry.1, entry.2)).forM
        fun file => createFile overwrite (siteSource.join file.1) file.2 := by
    refine forM_map_congr fun entry hentry => ?_
    obtain ⟨hne, hnames⟩ := isName_of_mem_sourceTree entry hentry
    rw [← siteSource.joinAll_eq_join hnames hne]
    rfl
  refine ⟨middle, ?_, rfl⟩
  rw [← hfiles] at hcreate
  exact hcreate

/-! ### New sites -/

/-- In the home directory there is a new site with its configuration under the name, and nothing
    else. -/
structure Scaffolded (disk : Disk) (name : String) : Prop where
  wellFormed : disk.WellFormed
  dir : disk.node? disk.home = some .dir
  noLinks : disk.NoLinksBelow disk.home
  spells : (⟨name⟩ : Path).Spells [name]
  files : ∀ entry ∈ siteTree name,
    disk.node? (entry.1.reverse ++ disk.home) = some (.file entry.2.toUTF8)
  only : ∀ names node, names ≠ [] → disk.node? (names.reverse ++ disk.home) = some node →
    ∃ entry ∈ siteTree name, names <+: entry.1

/-- A home directory without entries has nothing below it. -/
theorem node?_below_empty (wf : disk.WellFormed)
    (hempty : ∀ name, disk.node? (name :: disk.home) = none) {name : String} {up : Location}
    (hup : disk.home <:+ up) : disk.node? (name :: up) = none := by
  obtain ⟨names, rfl⟩ := hup
  cases hnode : disk.node? (name :: (names ++ disk.home)) with
  | none => rfl
  | some node =>
    -- Otherwise the home has an entry on the way there.
    obtain ⟨front, last, hsplit⟩ := List.eq_nil_or_concat (name :: names) |>.resolve_left (by simp)
    have hplace : name :: (names ++ disk.home) = front ++ last :: disk.home := by
      rw [← List.cons_append, hsplit, List.concat_eq_append, List.append_assoc]
      rfl
    rw [hplace] at hnode
    have hentry : ∃ node, disk.node? (last :: disk.home) = some node := by
      by_cases hfront : front = []
      · subst hfront
        exact ⟨node, hnode⟩
      · exact ⟨.dir, wf.above hfront hnode⟩
    obtain ⟨node, hentry⟩ := hentry
    rw [hempty last] at hentry
    cases hentry

/-- **New sites.** In a home directory with nothing in it, setting up a site that succeeds leaves
    just the files of the site. -/
theorem scaffolded_of_init (wf : disk.WellFormed) (hdir : disk.node? disk.home = some .dir)
    (hempty : ∀ name, disk.node? (name :: disk.home) = none) (hname : IsName name)
    {log : List Event} (hrun : (runInit ⟨name⟩ overwrite).run ⟨disk, log⟩ = .ok () after) :
    Scaffolded after.disk name := by
  have hnone : ∀ names, names ≠ [] → disk.node? (names.reverse ++ disk.home) = none := by
    intro names hne
    obtain ⟨last, front, hreverse⟩ := List.exists_cons_of_ne_nil (mt List.reverse_eq_nil_iff.mp hne)
    rw [hreverse]
    exact node?_below_empty wf hempty (List.suffix_append front _)
  have hno : disk.NoLinksBelow disk.home := by
    intro name up target hup hlink
    rw [node?_below_empty wf hempty hup] at hlink
    cases hlink
  have hsource : disk.isThere siteSource = false := by
    rw [← Bool.not_eq_true]
    intro hthere
    have hgoes : siteSource.GoesDown ["src"] := by decide
    obtain ⟨node, hnode⟩ := hgoes.node?_of_isThere hno hthere
    rw [hnone ["src"] (by simp)] at hnode
    cases hnode
  obtain ⟨middle, hfiles, hafter⟩ := runInit_eq name hsource hrun
  have hnames : ∀ entry ∈ siteTree name, entry.1 ≠ [] :=
    List.forall_mem_cons.mpr
      ⟨List.cons_ne_nil _ _, List.forall_mem_map.mpr fun _ _ => List.cons_ne_nil _ _⟩
  obtain ⟨hchanges, hnodes⟩ := createFiles_new (siteTree_goesDown hname) (siteTree_apart name) hno
    (fun entry hentry => hnone entry.1 (hnames entry hentry)) hfiles
  rw [← hafter] at hchanges hnodes
  have hhome := hchanges.grows.home
  have hdirAfter : after.disk.node? after.disk.home = some .dir := by
    rw [hhome]
    exact hchanges.grows.dir hdir
  have hnoAfter : after.disk.NoLinksBelow after.disk.home := by
    rw [hhome]
    exact hno.grows hchanges.grows
  refine ⟨hchanges.wellFormed wf, hdirAfter, hnoAfter, ?_, ?_, ?_⟩
  · exact Path.spells_of_isThere hdirAfter (fun target => hnoAfter _ _ target List.suffix_rfl)
      hname (hnodes _ List.mem_cons_self).1
  · intro entry hentry
    rw [hhome]
    exact (hnodes entry hentry).2
  · intro names node hne hnode
    rw [hhome] at hnode
    by_contra hother
    -- What is not on the way to a file was there before.
    rw [hchanges.node_eq, hnone names hne] at hnode
    · cases hnode
    · rintro ⟨entry, hentry, first, hfirst, hsame⟩
      exact hother ⟨entry, hentry, eq_of_reverse_append_eq hsame ▸ hfirst⟩
    · rintro ⟨entry, hentry, hsame⟩
      exact hother ⟨entry, hentry, eq_of_reverse_append_eq hsame ▸ List.prefix_rfl⟩

end PageLoom
