import PageLoom.Command.Run
import PageLoom.Proofs.Site.Outputs
import PageLoom.Proofs.Site.Progress

namespace PageLoom

/-!
# Builds that fail

A build that fails leaves what it did before, and nothing else. The command that builds a site
leaves everything as it was if there is no configuration that it could build by.

* `FailureLeaves`, from `PageLoom.Proofs.Site.Progress` — what each kind of failure leaves;
* `Unconfigured`, `runBuild_unconfigured` — the command without a configuration;
* `failed_build_leaves_prefix` — both together.
-/

/-- There is no configuration at the path: no file, or none that can be loaded. -/
def Unconfigured (disk : Disk) (configPath : Path) : Prop :=
  disk.isThere configPath = false ∨ ∃ cause, SiteConfig.load disk configPath = .error cause

/-- Without a configuration none is loaded, and nothing changes. -/
theorem loadForBuild_unconfigured {configPath : Path} {session : Session}
    (h : Unconfigured session.disk configPath) :
    ∃ e, (loadForBuild configPath).run session = .error e session := by
  rw [loadForBuild, Action.run_bind_of_ok Action.run_get]
  cases hthere : session.disk.isThere configPath with
  | false => exact ⟨.noConfig configPath, rfl⟩
  | true =>
    obtain hnone | ⟨cause, hload⟩ := h
    · rw [hthere] at hnone
      cases hnone
    · refine ⟨.config cause, ?_⟩
      have hlook : (Action.look .config (SiteConfig.load · configPath) :
          Action CommandError SiteConfig).run session = .error (.config cause) session :=
        Action.look_error_iff.mpr ⟨cause, hload, rfl, rfl⟩
      exact Action.run_bind_error_iff.mpr (.inl hlook)

/-- **Unconfigured.** Without a configuration the command fails, and all is as before. -/
theorem runBuild_unconfigured (tools : BuildSettings → Toolchain) {configPath : Path}
    (overrides : BuildOverrides) {disk : Disk} (h : Unconfigured disk configPath)
    (log : List Event) :
    ∃ e after, (runBuild tools configPath overrides).run ⟨disk, log⟩ = .error e after ∧
      after.disk = disk := by
  rw [runBuild, Action.run_tell_bind]
  have hstart : Unconfigured (⟨disk, log ++ [.building]⟩ : Session).disk configPath := h
  obtain ⟨e, hload⟩ := loadForBuild_unconfigured hstart
  exact ⟨e, _, Action.run_bind_error_iff.mpr (.inl hload), rfl⟩

/-- **A prefix of the work.** A build that fails, in a tree without links below the output
    directory, leaves what it did before the failing operation: at first nothing but the output
    directory and missing ones above it, and then what `FailureLeaves` says. Without a
    configuration the command leaves everything as it was. -/
theorem failed_build_leaves_prefix (tools : Toolchain) (config : SiteConfig) {disk : Disk}
    (wf : disk.WellFormed)
    (hlinks : ∀ place, disk.PathLeads config.layout.output place → disk.NoLinksBelow place)
    (log : List Event) :
    (∀ e after, (buildSite tools config).run ⟨disk, log⟩ = .error e after →
      disk.Changes (disk.Upwards config.layout.output) (fun _ => False)
        (readyDisk config.layout disk) ∧
      FailureLeaves tools config disk after.disk e) ∧
    ∀ toolsFor configPath overrides, Unconfigured disk configPath →
      ∃ e after, (runBuild toolsFor configPath overrides).run ⟨disk, log⟩ = .error e after ∧
        after.disk = disk := by
  refine ⟨fun e after hrun => ⟨disk.makeDirsUpTo_changes _ _, ?_⟩,
    fun toolsFor configPath overrides h => runBuild_unconfigured toolsFor overrides h log⟩
  have hends := buildSite_ends tools config wf hlinks log
  rwa [hrun] at hends

/-- The small site with a further page that is no text. -/
def unreadableSite : Disk :=
  smallSite.put ["bad.txt", "pages", "src"] (.file ⟨#[255]⟩)

/-- The build of the small site with a page that is no text fails at that page. -/
theorem failed_build_leaves_prefix_unreadable :
    (∃ after, (buildSite plainTools (plainConfig ⟨"dest"⟩)).run ⟨unreadableSite, []⟩ =
        .error (.read .pages ⟨"src/pages/bad.txt"⟩ .notUtf8) after ∧
      unreadableSite.Changes (unreadableSite.Upwards ⟨"dest"⟩) (fun _ => False)
        (readyDisk (plainConfig ⟨"dest"⟩).layout unreadableSite) ∧
      FailureLeaves plainTools (plainConfig ⟨"dest"⟩) unreadableSite after.disk
        (.read .pages ⟨"src/pages/bad.txt"⟩ .notUtf8)) ∧
    ∃ e after, (runBuild (fun _ => plainTools) ⟨"stitch.toml"⟩ ⟨none, false⟩).run
      ⟨unreadableSite, []⟩ = .error e after ∧ after.disk = unreadableSite := by
  have hnone : smallSite.node? ["bad.txt", "pages", "src"] = none := by decide +kernel
  have hgrows : smallSite.Grows unreadableSite := by
    refine .put _ _ _ ?_
    rw [hnone]
    exact .file _
  have wf : unreadableSite.WellFormed :=
    smallSite_wellFormed.put (by decide) (by decide +kernel) fun hdir => by
      rw [hnone] at hdir
      cases hdir
  obtain ⟨hfailed, hcommand⟩ := failed_build_leaves_prefix plainTools (plainConfig ⟨"dest"⟩) wf
    (fun place _ => (smallSite_noLinks place).grows hgrows) []
  refine ⟨?_, hcommand _ _ _ (.inl (by decide +kernel))⟩
  have hfails : failure? ((buildSite plainTools (plainConfig ⟨"dest"⟩)).run ⟨unreadableSite, []⟩) =
      some (.read .pages ⟨"src/pages/bad.txt"⟩ .notUtf8) := by decide +kernel
  obtain ⟨after, hrun⟩ := failure?_eq_some_iff.mp hfails
  exact ⟨after, hrun, hfailed _ after hrun⟩

end PageLoom
