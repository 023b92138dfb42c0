import PageLoom.Proofs.Config.Load
import PageLoom.Proofs.Disk.Flat
import PageLoom.Proofs.Site.Scaffolded
import PageLoom.Proofs.Site.Stages

namespace PageLoom

/-!
# The source tree of a new site

What is written into the output directory leaves the source tree as it is, so it can be read and
listed at any time while the site is built. As long as only files stand in the output directory,
and none in the place of the assets, more files can be written there.

* `HoldsSource` — the source tree with nothing else in it;
* `HoldsSource.readText`, `HoldsSource.holdsJust` — how it is read and listed;
* `newLayout`, `newPages` — the directories of a new site, and its pages;
* `NewOutput`, `Scaffolded.makeOutput` — the output directory, and that it is made;
* `NewOutput.write` — one more file.
-/

variable {disk before after : Disk} {path : Path} {names : List String} {name text : String}

/-! ### The source tree -/

/-- In the source directory there is the source tree of a new site, and nothing else. -/
structure HoldsSource (disk : Disk) : Prop where
  wellFormed : disk.WellFormed
  noLinks : disk.NoLinksBelow disk.home
  files : ∀ entry ∈ sourceTree,
    disk.node? (("src" :: entry.1).reverse ++ disk.home) = some (.file entry.2.toUTF8)
  only : ∀ names node, disk.node? (("src" :: names).reverse ++ disk.home) = some node →
    ∃ entry ∈ sourceTree, names <+: entry.1

/-- A new site has the source tree. -/
theorem Scaffolded.holdsSource (h : Scaffolded disk name) : HoldsSource disk := by
  refine ⟨h.wellFormed, h.noLinks, ?_, ?_⟩
  · intro entry hentry
    exact h.files _ (List.mem_cons_of_mem _ (List.mem_map_of_mem hentry))
  · intro names node hnode
    obtain ⟨entry, hentry, hprefix⟩ := h.only _ node (List.cons_ne_nil _ _) hnode
    rcases List.mem_cons.mp hentry with rfl | hentry
    · -- The configuration can only stand at the root of the source tree, which is above all files.
      have hlength := hprefix.length_le
      obtain rfl : names = [] := by
        rw [← List.length_eq_zero_iff]
        simpa using hlength
      exact ⟨_, List.mem_cons_self, List.nil_prefix⟩
    · obtain ⟨file, hfile, rfl⟩ := List.mem_map.mp hentry
      exact ⟨file, hfile, (List.cons_prefix_cons.mp hprefix).2⟩

/-- What is below the source directory is not below another entry of the home. -/
theorem not_below_of_source {home : Location} {other : String} (hother : "src" ≠ other) :
    ¬ other :: home <:+ ("src" :: names).reverse ++ home := by
  intro hbelow
  rw [List.reverse_cons, List.append_assoc, List.singleton_append] at hbelow
  exact Disk.not_below_sibling hother
    (List.suffix_of_suffix_length_le hbelow (List.suffix_append _ _) le_rfl)

/-- Changes in another entry of the home leave the source tree as it is. -/
theorem HoldsSource.changes {other : String} (h : HoldsSource before) (hother : "src" ≠ other)
    (hchanges : before.Changes (other :: before.home <:+ ·) (other :: before.home <:+ ·) after) :
    HoldsSource after := by
  have hhome := hchanges.grows.home
  have hsame : ∀ names, after.node? (("src" :: names).reverse ++ after.home) =
      before.node? (("src" :: names).reverse ++ before.home) := by
    intro names
    rw [hhome]
    exact hchanges.node_eq (not_below_of_source hother) (not_below_of_source hother)
  refine ⟨hchanges.wellFormed h.wellFormed, ?_, ?_, ?_⟩
  · rw [hhome]
    exact h.noLinks.grows hchanges.grows
  · intro entry hentry
    rw [hsame]
    exact h.files entry hentry
  · intro names node hnode
    rw [hsame] at hnode
    exact h.only names node hnode

/-- The texts of the source tree can be read. -/
theorem HoldsSource.readText (h : HoldsSource disk) (hentry : (names, text) ∈ sourceTree)
    (hpath : path.Spells ("src" :: names)) : disk.readText path = .ok text :=
  Disk.readText_of_readBytes (hpath.readBytes h.wellFormed (h.files _ hentry))

/-- In the source tree the names lead to a directory that holds just files. -/
structure FlatDir (names : List String) (files : List (String × String)) : Prop where
  nonempty : files ≠ []
  nodup : (files.map Prod.fst).Nodup
  mem : ∀ file ∈ files, (names ++ [file.1], file.2) ∈ sourceTree
  flat : ∀ entry ∈ sourceTree, names <+: entry.1 → ∃ file ∈ files, entry.1 = names ++ [file.1]

variable {files : List (String × String)}

/-- It is a directory. -/
theorem HoldsSource.dir (h : HoldsSource disk) (hdir : FlatDir names files) :
    disk.node? (("src" :: names).reverse ++ disk.home) = some .dir := by
  obtain ⟨file, hfile⟩ := List.exists_mem_of_ne_nil files hdir.nonempty
  have hnode := h.files _ (hdir.mem file hfile)
  rw [← List.cons_append, List.reverse_append, List.append_assoc] at hnode
  exact h.wellFormed.above (by simp) hnode

/-- It is found by its names. -/
theorem HoldsSource.status (h : HoldsSource disk) (hdir : FlatDir names files)
    (hpath : path.Spells ("src" :: names)) :
    disk.status path = .ok (("src" :: names).reverse ++ disk.home, .dir) :=
  hpath.status h.wellFormed (h.dir hdir) (by simp)

/-- It holds the files that it is told to. -/
theorem HoldsSource.holdsJust (h : HoldsSource disk) (hdir : FlatDir names files) :
    disk.HoldsJust (("src" :: names).reverse ++ disk.home) files := by
  have hplace : ∀ name, ("src" :: (names ++ [name])).reverse ++ disk.home =
      name :: (("src" :: names).reverse ++ disk.home) := by
    intro name
    rw [← List.cons_append, List.reverse_append]
    rfl
  have hfiles : ∀ file ∈ files, disk.node? (file.1 :: (("src" :: names).reverse ++ disk.home)) =
      some (.file file.2.toUTF8) := by
    intro file hfile
    rw [← hplace]
    exact h.files _ (hdir.mem file hfile)
  refine ⟨hdir.nodup, fun name node => ⟨fun hnode => ?_, ?_⟩⟩
  · rw [← hplace] at hnode
    obtain ⟨entry, hentry, hprefix⟩ := h.only _ node hnode
    obtain ⟨file, hfile, heq⟩ := hdir.flat entry hentry ((List.prefix_append _ _).trans hprefix)
    -- Below the directory there is nothing but its files.
    rw [heq] at hprefix
    obtain rfl : name = file.1 := by
      have hsame := hprefix.eq_of_length (by simp)
      exact (List.cons.inj (List.append_cancel_left hsame)).1
    rw [hplace, hfiles file hfile] at hnode
    exact ⟨file.2, hfile, (Option.some.inj hnode).symm⟩
  · rintro ⟨text, hfile, rfl⟩
    exact hfiles _ hfile

/-! ### The directories of a build -/

/-- The output directory of a build by default settings. -/
def newOutput : Path :=
  ⟨"dest"⟩

/-- The layout of a new site. -/
def newLayout : SiteLayout :=
  ⟨⟨"src"⟩, newOutput, ⟨"src/style/style.css"⟩⟩

/-- The pages of a new site stand in a directory of their own. -/
theorem pages_flat :
    FlatDir ["pages"] [("index.html", Scaffold.indexPage), ("about.md", Scaffold.aboutPage)] := by
  refine ⟨by simp, by decide, by simp [sourceTree], ?_⟩
  simp only [sourceTree, List.forall_mem_cons]
  decide

/-- So do its assets. -/
theorem assets_flat : FlatDir ["assets"] [("robots.txt", Scaffold.robots)] := by
  refine ⟨by simp, by decide, by simp [sourceTree], ?_⟩
  simp only [sourceTree, List.forall_mem_cons]
  decide

/-- Its script stands beside the element that loads it. -/
theorem scripts_flat :
    FlatDir ["parts", "script"]
      [("script.html", Scaffold.scriptPart), ("main.js", Scaffold.script)] := by
  refine ⟨by simp, by decide, by simp [sourceTree], ?_⟩
  simp only [sourceTree, List.forall_mem_cons]
  decide

/-- The page files of a new site. -/
def newPages : List Path :=
  [⟨"src/pages/index.html"⟩, ⟨"src/pages/about.md"⟩]

/-- They are found, in some order. -/
theorem HoldsSource.scan_pages (h : HoldsSource disk) (order : ListingOrder) :
    ∃ paths, disk.scan order newLayout.pagesDir pageFilter = .ok paths ∧ paths.Perm newPages := by
  have hpath : newLayout.pagesDir.Spells ["src", "pages"] := by decide
  exact (h.holdsJust pages_flat).scan h.wellFormed (h.status pages_flat hpath) order pageFilter

/-! ### The output directory -/

/-- Beside the source tree of a new site there is the output directory. It holds files, but none in
    the place of the assets. -/
structure NewOutput (disk : Disk) : Prop where
  source : HoldsSource disk
  dir : disk.node? ("dest" :: disk.home) = some .dir
  flat : ∀ name node, disk.node? (name :: "dest" :: disk.home) = some node →
    name ≠ "assets" ∧ ∃ bytes, node = .file bytes

variable {ε : Type} {onError : IoError → ε} {session : Session}

/-- The path of the output directory stands. -/
theorem NewOutput.stands (h : NewOutput disk) : disk.StandsAt newOutput ("dest" :: disk.home) := by
  have hpath : newOutput.Spells ["dest"] := by decide
  exact hpath.standsAt h.source.wellFormed h.dir

/-- The output directory is ready for a build. -/
theorem NewOutput.ready (h : NewOutput disk) :
    OutputReady disk newOutput ("dest" :: disk.home) :=
  ⟨h.stands, h.source.noLinks.cons _⟩

/-- **One more file.** A file can be written into the output directory, unless it takes the place of
    the assets. -/
theorem NewOutput.write (h : NewOutput session.disk) (onError : IoError → ε) (text : String)
    (hname : IsName name) (hpath : (newOutput.join name).Spells ["dest", name])
    (hassets : name ≠ "assets") :
    ∃ after, (Action.writeFile onError (newOutput.join name) text).run session = .ok () after ∧
      NewOutput after.disk ∧ session.disk.Changes (fun _ => False)
        (· = name :: "dest" :: session.disk.home) after.disk := by
  obtain ⟨parent, hparent, htrims⟩ := newOutput.exists_parent?_join hname
  have hentry := Path.isEntry_join hname h.stands h.dir fun target =>
    h.ready.noLinks name _ target List.suffix_rfl
  have hfree : session.disk.node? (name :: "dest" :: session.disk.home) = none ∨
      ∃ old, session.disk.node? (name :: "dest" :: session.disk.home) = some (.file old) := by
    cases hnode : session.disk.node? (name :: "dest" :: session.disk.home) with
    | none => exact .inl rfl
    | some node =>
      obtain ⟨-, bytes, rfl⟩ := h.flat name node hnode
      exact .inr ⟨bytes, rfl⟩
  have hrun : (Action.writeFile onError (newOutput.join name) text).run session =
      .ok () { session with
        disk := session.disk.put (name :: "dest" :: session.disk.home) (.file text.toUTF8) } := by
    rw [Action.writeFile_below hparent (h.stands.trims htrims)]
    refine Action.change_ok_iff.mpr ⟨_, hentry.write_ok_iff.mpr ⟨?_, rfl⟩, rfl⟩
    exact ⟨newOutput.endsInSlash_join hname, hpath.fault, hpath.sizes name (by simp), hfree⟩
  have hwrote := writeOutput_ok hrun h.ready hname
  refine ⟨_, hrun, ⟨h.source.changes (by decide : "src" ≠ "dest") (hwrote.changes.mono ?_ ?_),
    hwrote.changes.grows.dir h.dir, ?_⟩, hwrote.changes⟩
  · exact fun _ => False.elim
  · rintro _ rfl
    exact List.suffix_cons _ _
  · intro other node hnode
    by_cases hsame : other = name
    · subst hsame
      have hnew := hnode.symm.trans hwrote.node
      exact ⟨hassets, _, Option.some.inj hnew⟩
    · refine h.flat other node (hwrote.changes.node_eq id ?_ ▸ hnode)
      exact fun hplace => hsame (List.cons.inj hplace).1

/-- A directory that is made where nothing was has nothing in it. -/
theorem makeDirs_new {path : Path} {up : Location} (wf : session.disk.WellFormed)
    (hentry : session.disk.IsEntry path up name) (hfault : path.fault? = none)
    (hsize : name.utf8ByteSize ≤ nameLimit) (hfree : session.disk.node? (name :: up) = none) :
    ∃ made, (Action.makeDirs onError path).run session = .ok () made ∧
      session.disk.Changes (· = name :: up) (fun _ => False) made.disk ∧
      made.disk.node? (name :: up) = some .dir ∧
      ∀ other, made.disk.node? (other :: name :: up) = none := by
  have hmade := hentry.makeDirs_of_free hfault hsize hfree
  have hchanges := Disk.changes_put_dir hentry.isName hentry.dir hfree
  refine ⟨{ session with disk := session.disk.put (name :: up) .dir },
    Action.makeDirs_ok_iff.mpr ⟨by rw [hmade], by rw [hmade]⟩, hchanges, Disk.node?_put_self ..,
    fun other => ?_⟩
  have hother : other :: name :: up ≠ name :: up :=
    fun hsame => by simpa using congrArg List.length hsame
  refine (hchanges.node_eq hother id).trans ?_
  cases hnode : session.disk.node? (other :: name :: up) with
  | none => rfl
  | some node =>
    rw [wf.parent hnode] at hfree
    cases hfree

/-- The output directory of a new site is made. -/
theorem Scaffolded.makeOutput (h : Scaffolded session.disk name) (onError : IoError → ε)
    (hname : name ≠ "dest") :
    ∃ made, (Action.makeDirs onError newOutput).run session = .ok () made ∧
      NewOutput made.disk ∧ made.disk.home = session.disk.home := by
  have hfree : session.disk.node? ("dest" :: session.disk.home) = none := by
    cases hnode : session.disk.node? ("dest" :: session.disk.home) with
    | none => rfl
    | some node =>
      -- Neither the configuration nor the source tree stands there.
      obtain ⟨entry, hentry, hprefix⟩ := h.only ["dest"] node (by simp) hnode
      rcases List.mem_cons.mp hentry with rfl | hentry
      · exact absurd (List.cons_prefix_cons.mp hprefix).1.symm hname
      · obtain ⟨file, -, rfl⟩ := List.mem_map.mp hentry
        exact absurd (List.cons_prefix_cons.mp hprefix).1 (by decide)
  have hentry : session.disk.IsEntry newOutput session.disk.home "dest" := by
    refine ⟨by decide, h.dir, fun target hlink => ?_, ⟨""⟩, by decide, .inl ⟨rfl, rfl⟩⟩
    rw [hfree] at hlink
    cases hlink
  obtain ⟨made, hmake, hchanges, hdir, hnone⟩ :=
    makeDirs_new h.wellFormed hentry (by decide) (by decide) hfree
  have hhome := hchanges.grows.home
  rw [← hhome] at hdir hnone
  refine ⟨made, hmake, ⟨h.holdsSource.changes (by decide : "src" ≠ "dest") (hchanges.mono ?_ ?_),
    hdir, ?_⟩, hhome⟩
  · rintro _ rfl
    exact List.suffix_rfl
  · exact fun _ => False.elim
  · intro other node hnode
    rw [hnone] at hnode
    cases hnode

end PageLoom
