import PageLoom.Proofs.Site.Stages

namespace PageLoom

/-!
# How far a build comes

A build goes through its stages in order and ends with the first failure. So what it leaves is
told by how far it came: the pages that were written, then the stylesheet, the bundle, and at
last the assets.

* `PagesDone`, `StylesheetDone`, `BundleDone` — the points that a build passes;
* `FailureLeaves` — what a build that failed left, by the kind of its failure;
* `BuildEnds`, `buildSite_ends` — every build ends at one of these points.
-/

/-- The disk of a build once the output directory was made. -/
def readyDisk (layout : SiteLayout) (before : Disk) : Disk :=
  (before.makeDirs layout.output).2

/-- A build has found its pages, loaded the layout parts and written the pages `done`. The pages
    `rest` are still to be written. -/
structure PagesDone (tools : Toolchain) (config : SiteConfig) (before : Disk) (place : Location)
    (fragments : Fragments) (done rest : List PageSource) (disk : Disk) : Prop where
  leads : before.PathLeads config.layout.output place
  found : ∃ paths, (readyDisk config.layout before).scan tools.order config.layout.pagesDir
      pageFilter = .ok paths ∧ paths.map (PageSource.of · config.layout.output) = done ++ rest
  loaded : ∀ part, PartLoaded config (readyDisk config.layout before) part (fragments.part part)
  written : PagesWritten tools config fragments place done (readyDisk config.layout before) disk

/-- A build has written all its pages and then the stylesheet. -/
def StylesheetDone (tools : Toolchain) (config : SiteConfig) (before : Disk) (place : Location)
    (fragments : Fragments) (pages : List PageSource) (disk : Disk) : Prop :=
  ∃ compiled, PagesDone tools config before place fragments pages [] compiled ∧
    StylesheetWritten tools config.layout place compiled disk

/-- A build has written all its pages, the stylesheet and then the bundle. -/
def BundleDone (tools : Toolchain) (config : SiteConfig) (before : Disk) (place : Location)
    (fragments : Fragments) (pages : List PageSource) (scripts : List Path) (disk : Disk) : Prop :=
  ∃ styled, StylesheetDone tools config before place fragments pages styled ∧
    BundleWritten tools config.layout place scripts styled disk

/-- What a build that failed left on the disk. Every failure tells how far the build came. -/
def FailureLeaves (tools : Toolchain) (config : SiteConfig) (before after : Disk) :
    BuildError → Prop
  | .scan .pages _ | .read .fragments _ _ | .pattern _ _ => after = readyDisk config.layout before
  | .read .pages path cause =>
    ∃ place fragments done page rest,
      PagesDone tools config before place fragments done (page :: rest) after ∧
      page.path = path ∧ after.readText path = .error cause
  | .stylesheet path reason =>
    ∃ place fragments pages, PagesDone tools config before place fragments pages [] after ∧
      tools.stylesheet after path = .error reason
  | .scan .scripts _ | .read .scripts _ _ =>
    ∃ place fragments pages, StylesheetDone tools config before place fragments pages after
  | .copy _ _ =>
    ∃ place fragments pages scripts bundled,
      BundleDone tools config before place fragments pages scripts bundled ∧
      bundled.Changes ("assets" :: place <:+ ·) ("assets" :: place <:+ ·) after
  | .write path _ =>
    (path = config.layout.output ∧ after = readyDisk config.layout before) ∨
    (∃ place fragments done page rest,
      PagesDone tools config before place fragments done (page :: rest) after ∧
      path = page.outputPath) ∨
    (∃ place fragments pages, PagesDone tools config before place fragments pages [] after ∧
      path = config.layout.outputStylesheet) ∨
    (∃ place fragments pages, StylesheetDone tools config before place fragments pages after ∧
      path = config.layout.outputBundle)
  | .scan .fragments _ => False

/-- How a build ends: with a failure, or with the assets after all the other stages. -/
def BuildEnds (tools : Toolchain) (config : SiteConfig) (before : Disk) :
    EStateM.Result BuildError Session BuildResult → Prop
  | .error e after => FailureLeaves tools config before after.disk e
  | .ok result after =>
    ∃ place fragments pages scripts bundled,
      OutputReady (readyDisk config.layout before) config.layout.output place ∧
      BundleDone tools config before place fragments pages scripts bundled.disk ∧
      (copyAssets tools config.layout).run bundled = .ok result.assets after ∧
      result.pages = pages.length ∧ result.scripts = scripts.length ∧
      result.output = config.layout.output

variable {tools : Toolchain} {config : SiteConfig} {before : Disk} {place : Location}
  {fragments : Fragments} {pages done rest : List PageSource} {disk : Disk} {scripts : List Path}

/-- The output directory is ready for the stages once it was made. -/
theorem outputReady_of_makeDirs {output : Path}
    (hlinks : ∀ place, before.PathLeads output place → before.NoLinksBelow place)
    (h : (before.makeDirs output).1 = .ok ()) :
    ∃ place, before.PathLeads output place ∧ OutputReady (before.makeDirs output).2 output place := by
  have hgrows := (before.makeDirsUpTo_changes output.text.length output).grows
  obtain ⟨place, hstands⟩ := Disk.makeDirsUpTo_ok h
  have hleads := (hgrows.pathLeads_iff output).mp hstands.pathLeads
  exact ⟨place, hleads, hstands, (hlinks place hleads).grows hgrows⟩

theorem PagesDone.grows (h : PagesDone tools config before place fragments done rest disk) :
    (readyDisk config.layout before).Grows disk :=
  h.written.changes.grows

theorem StylesheetDone.grows (h : StylesheetDone tools config before place fragments pages disk) :
    (readyDisk config.layout before).Grows disk := by
  obtain ⟨compiled, hpages, _, -, hwrote⟩ := h
  exact hpages.grows.trans hwrote.changes.grows

theorem BundleDone.grows
    (h : BundleDone tools config before place fragments pages scripts disk) :
    (readyDisk config.layout before).Grows disk := by
  obtain ⟨styled, hstyled, _, -, -, hwrote⟩ := h
  exact hstyled.grows.trans hwrote.changes.grows

/-- An action that failed ends what was to come after it. -/
theorem buildEnds_of_error {α : Type} {action : Action BuildError α}
    {next : α → Action BuildError BuildResult} {session after : Session} {e : BuildError}
    (h : action.run session = .error e after)
    (hleft : FailureLeaves tools config before after.disk e) :
    BuildEnds tools config before ((action >>= next).run session) := by
  rw [Action.run_bind_error_iff.mpr (.inl h)]
  exact hleft

/-- From a written bundle a build ends as it should. -/
theorem assets_end {session : Session} (wf : before.WellFormed)
    (hready : OutputReady (readyDisk config.layout before) config.layout.output place)
    (hbundle : BundleDone tools config before place fragments pages scripts session.disk) :
    BuildEnds tools config before ((do
      let assets ← copyAssets tools config.layout
      return { pages := pages.length, scripts := scripts.length, assets,
               output := config.layout.output } : Action BuildError BuildResult).run session) := by
  have hmade := before.makeDirsUpTo_changes config.layout.output.text.length config.layout.output
  have hdone : before.Grows session.disk := hmade.grows.trans hbundle.grows
  cases hrun : (copyAssets tools config.layout).run session with
  | error e after =>
    -- The copy changes only what is below its own place if the disk is a tree still.
    have hwf : session.disk.WellFormed := by
      obtain ⟨styled, ⟨compiled, hpages, _, -, hstyled⟩, _, -, -, hbundled⟩ := hbundle
      exact hbundled.changes.wellFormed (hstyled.changes.wellFormed
        (hpages.written.changes.wellFormed (hmade.wellFormed wf)))
    obtain ⟨⟨cause, rfl⟩, hchanges⟩ := copyAssets_error hwf (hready.grows hbundle.grows) hrun
    exact buildEnds_of_error hrun ⟨place, fragments, pages, scripts, _, hbundle, hchanges⟩
  | ok assets after =>
    rw [Action.run_bind_of_ok hrun]
    exact ⟨place, fragments, pages, scripts, session, hready, hbundle, hrun, rfl, rfl, rfl⟩

/-- From a written stylesheet a build ends as it should. -/
theorem bundle_ends {session : Session} (wf : before.WellFormed)
    (hready : OutputReady (readyDisk config.layout before) config.layout.output place)
    (hstyled : StylesheetDone tools config before place fragments pages session.disk) :
    BuildEnds tools config before ((do
      let scripts ← bundleScripts tools config.layout
      Action.tell .processingAssets
      let assets ← copyAssets tools config.layout
      return { pages := pages.length, scripts, assets, output := config.layout.output } :
        Action BuildError BuildResult).run session) := by
  cases hrun : (bundleScripts tools config.layout).run session with
  | error e after =>
    refine buildEnds_of_error hrun ?_
    obtain ⟨hdisk, hcause⟩ := bundleScripts_error (hready.grows hstyled.grows) hrun
    rw [hdisk]
    rcases hcause with ⟨cause, rfl⟩ | ⟨path, cause, rfl⟩ | ⟨cause, rfl⟩
    · exact ⟨place, fragments, pages, hstyled⟩
    · exact ⟨place, fragments, pages, hstyled⟩
    · exact .inr (.inr (.inr ⟨place, fragments, pages, hstyled, rfl⟩))
  | ok count after =>
    rw [Action.run_bind_of_ok hrun]
    obtain ⟨scripts, hbundle, rfl⟩ := bundleScripts_ok (hready.grows hstyled.grows) hrun
    have hdone : BundleDone tools config before place fragments pages scripts after.disk :=
      ⟨session.disk, hstyled, hbundle⟩
    rw [Action.run_tell_bind]
    exact assets_end wf hready hdone

/-- From written pages a build ends as it should. -/
theorem stylesheet_ends {session : Session} (wf : before.WellFormed)
    (hready : OutputReady (readyDisk config.layout before) config.layout.output place)
    (hpages : PagesDone tools config before place fragments pages [] session.disk) :
    BuildEnds tools config before ((do
      buildStylesheet tools config.layout
      Action.tell .processingScripts
      let scripts ← bundleScripts tools config.layout
      Action.tell .processingAssets
      let assets ← copyAssets tools config.layout
      return { pages := pages.length, scripts, assets, output := config.layout.output } :
        Action BuildError BuildResult).run session) := by
  cases hrun : (buildStylesheet tools config.layout).run session with
  | error e after =>
    refine buildEnds_of_error hrun ?_
    obtain ⟨hdisk, hcause⟩ := buildStylesheet_error (hready.grows hpages.grows) hrun
    rw [hdisk]
    rcases hcause with ⟨reason, hfailed, rfl⟩ | ⟨cause, rfl⟩
    · exact ⟨place, fragments, pages, hpages, hfailed⟩
    · exact .inr (.inr (.inl ⟨place, fragments, pages, hpages, rfl⟩))
  | ok value after =>
    rw [Action.run_bind_of_ok hrun]
    have hstyled := buildStylesheet_ok (hready.grows hpages.grows) hrun
    have hdone : StylesheetDone tools config before place fragments pages after.disk :=
      ⟨session.disk, hpages, hstyled⟩
    rw [Action.run_tell_bind]
    exact bundle_ends wf hready hdone

/-- From loaded parts a build ends as it should. -/
theorem pages_end {session : Session} {paths : List Path} (wf : before.WellFormed)
    (hready : OutputReady (readyDisk config.layout before) config.layout.output place)
    (hleads : before.PathLeads config.layout.output place)
    (hscan : (readyDisk config.layout before).scan tools.order config.layout.pagesDir pageFilter =
      .ok paths)
    (hloaded : ∀ part,
      PartLoaded config (readyDisk config.layout before) part (fragments.part part))
    (hdisk : session.disk = readyDisk config.layout before) :
    BuildEnds tools config before ((do
      let pages := paths.map (PageSource.of · config.layout.output)
      pages.forM (buildPage tools config fragments)
      Action.tell .processingStylesheet
      buildStylesheet tools config.layout
      Action.tell .processingScripts
      let scripts ← bundleScripts tools config.layout
      Action.tell .processingAssets
      let assets ← copyAssets tools config.layout
      return { pages := pages.length, scripts, assets, output := config.layout.output } :
        Action BuildError BuildResult).run session) := by
  -- The pages are written straight into the output directory, which is there already.
  have hbelow : ∀ page ∈ paths.map (PageSource.of · config.layout.output),
      PageBelow config.layout.output page := by
    intro page hpage
    obtain ⟨path, -, rfl⟩ := List.mem_map.mp hpage
    exact pageBelow_of path _
  rw [← hdisk] at hready
  cases hrun : ((paths.map (PageSource.of · config.layout.output)).forM
      (buildPage tools config fragments)).run session with
  | error e after =>
    refine buildEnds_of_error hrun ?_
    -- The pages before the failing one were written, and it is the first of the rest.
    obtain ⟨done, page, rest, hpages, hwritten, hfailed⟩ := buildPages_error hready hbelow hrun
    rw [hdisk] at hwritten
    have hdone : PagesDone tools config before place fragments done (page :: rest) after.disk :=
      ⟨hleads, ⟨paths, hscan, hpages⟩, hloaded, hwritten⟩
    rcases hfailed with ⟨cause, hread, rfl⟩ | ⟨cause, rfl⟩
    · exact ⟨place, fragments, done, page, rest, hdone, rfl, hread⟩
    · exact .inr (.inl ⟨place, fragments, done, page, rest, hdone, rfl⟩)
  | ok value after =>
    have hwritten := buildPages_ok hready hbelow hrun
    rw [hdisk] at hready hwritten
    have hdone : PagesDone tools config before place fragments
        (paths.map (PageSource.of · config.layout.output)) [] after.disk :=
      ⟨hleads, ⟨paths, hscan, by simp⟩, hloaded, hwritten⟩
    rw [Action.run_bind_of_ok hrun, Action.run_tell_bind]
    exact stylesheet_ends wf hready hdone

/-- **Ends.** Every build of a tree that has no links below the output directory ends at one of
    its stages, and leaves what was done up to there. -/
theorem buildSite_ends (tools : Toolchain) (config : SiteConfig) (wf : before.WellFormed)
    (hlinks : ∀ place, before.PathLeads config.layout.output place → before.NoLinksBelow place)
    (log : List Event) :
    BuildEnds tools config before ((buildSite tools config).run ⟨before, log⟩) := by
  rw [buildSite]
  cases hdirs : (Action.makeDirs (.write config.layout.output) config.layout.output :
      Action BuildError Unit).run ⟨before, log⟩ with
  | error e after =>
    obtain ⟨cause, -, rfl, rfl⟩ := Action.makeDirs_error_iff.mp hdirs
    exact buildEnds_of_error hdirs (.inl ⟨rfl, rfl⟩)
  | ok value made =>
    obtain ⟨hok, rfl⟩ := Action.makeDirs_ok_iff.mp hdirs
    obtain ⟨place, hleads, hready⟩ := outputReady_of_makeDirs hlinks hok
    rw [Action.run_bind_of_ok hdirs]
    cases hpages : (findPages tools config.layout).run
        ⟨(before.makeDirs config.layout.output).2, log⟩ with
    | error e after =>
      obtain ⟨cause, -, rfl, rfl⟩ := findPages_error_iff.mp hpages
      refine buildEnds_of_error hpages ?_
      exact rfl
    | ok pages found =>
      obtain ⟨paths, hscan, rfl, rfl⟩ := findPages_ok_iff.mp hpages
      rw [Action.run_bind_of_ok hpages]
      cases hparts : (loadFragments config).run
          ⟨(before.makeDirs config.layout.output).2, log⟩ with
      | error e after =>
        refine buildEnds_of_error hparts ?_
        obtain ⟨hdisk, ⟨part, cause, rfl⟩ | ⟨part, cause, rfl⟩⟩ := loadFragments_error hparts
        · exact hdisk
        · exact hdisk
      | ok fragments loaded =>
        obtain ⟨hdisk, hloaded⟩ := loadFragments_ok hparts
        rw [Action.run_bind_of_ok hparts, Action.run_tell_bind]
        refine pages_end wf hready hleads hscan hloaded ?_
        exact hdisk

end PageLoom
