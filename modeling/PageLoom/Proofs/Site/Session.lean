import PageLoom.Proofs.Disk.Changes
import PageLoom.Site.Session

namespace PageLoom

/-!
# Runs of actions

How an action runs is told twice: by what it did if it succeeded, and by what it left if it
failed. For each way to put actions together, and for each operation on the disk, there is one
lemma on success and one on failure.

* `Action.run_bind_ok_iff`, `Action.run_bind_error_iff` — one action after the other;
* `Action.look_ok_iff`, `Action.makeDirs_ok_iff`, … — the operations;
* `Action.Preserves` — what holds of the disk before and after, whether or not an action fails;
* `Action.exists_round_of_mapM` — the rounds of a loop that succeeds;
* `Action.writeFile_below` — a file is written into a standing directory.
-/

/-- The disk that a run left. -/
def finalDisk {ε α : Type} : EStateM.Result ε Session α → Disk
  | .ok _ session | .error _ session => session.disk

/-- The failure that a run ended with, if it did. -/
def failure? {ε α : Type} : EStateM.Result ε Session α → Option ε
  | .error e _ => some e
  | .ok _ _ => none

theorem failure?_eq_some_iff {ε α : Type} {result : EStateM.Result ε Session α} {e : ε} :
    failure? result = some e ↔ ∃ after, result = .error e after := by
  cases result <;> simp [failure?]

/-- A run without a failure succeeded. -/
theorem failure?_eq_none_iff {ε α : Type} {result : EStateM.Result ε Session α} :
    failure? result = none ↔ ∃ value after, result = .ok value after := by
  cases result <;> simp [failure?]

namespace Action

variable {ε δ α β : Type} {session after : Session} {e : ε}

/-! ### One after the other -/

/-- Two actions succeed if the first one does and then the second one. -/
theorem run_bind_ok_iff {action : Action ε α} {next : α → Action ε β} {value : β} :
    (action >>= next).run session = .ok value after ↔
      ∃ first middle, action.run session = .ok first middle ∧
        (next first).run middle = .ok value after := by
  show EStateM.bind action next session = _ ↔ _
  rw [EStateM.bind]
  show _ ↔ ∃ first middle, action session = _ ∧ next first middle = _
  cases action session with
  | ok first middle => simp
  | error e middle => simp

/-- Two actions fail where the first one fails, or where the second one does. -/
theorem run_bind_error_iff {action : Action ε α} {next : α → Action ε β} :
    (action >>= next).run session = .error e after ↔
      action.run session = .error e after ∨
      ∃ first middle, action.run session = .ok first middle ∧
        (next first).run middle = .error e after := by
  show EStateM.bind action next session = _ ↔ _
  rw [EStateM.bind]
  show _ ↔ action session = _ ∨ ∃ first middle, action session = _ ∧ next first middle = _
  cases action session with
  | ok first middle => simp
  | error e middle => simp

/-- After an action that succeeded the next one runs. -/
theorem run_bind_of_ok {action : Action ε α} {next : α → Action ε β} {first : α}
    (h : action.run session = .ok first after) :
    (action >>= next).run session = (next first).run after := by
  rw [EStateM.run] at h
  show EStateM.bind action next session = _
  rw [EStateM.bind, h]
  rfl

@[simp] theorem run_pure (value : α) : (pure value : Action ε α).run session = .ok value session :=
  rfl

@[simp] theorem run_throw (e : ε) : (throw e : Action ε α).run session = .error e session :=
  rfl

theorem run_keep (disk : Disk) :
    (modify fun session => { session with disk } : Action ε PUnit).run session =
      .ok () { session with disk } :=
  rfl

theorem run_get : (get : Action ε Session).run session = .ok session session :=
  rfl

/-- What is told before an action changes the log only. -/
theorem run_tell_bind (event : Event) (action : Action ε α) :
    (tell event >>= fun _ => action).run session =
      action.run { session with log := session.log ++ [event] } :=
  rfl

/-- An action whose errors were turned into others succeeds as before. -/
theorem run_adapt_ok_iff {onError : δ → ε} {action : Action δ α} {value : α} :
    (EStateM.adaptExcept onError action).run session = .ok value after ↔
      action.run session = .ok value after := by
  show EStateM.adaptExcept onError action session = _ ↔ action session = _
  rw [EStateM.adaptExcept]
  cases action session <;> simp

/-- An action whose errors were turned into others fails as before, with the other error. -/
theorem run_adapt_error_iff {onError : δ → ε} {action : Action δ α} :
    (EStateM.adaptExcept onError action).run session = .error e after ↔
      ∃ cause, action.run session = .error cause after ∧ e = onError cause := by
  show EStateM.adaptExcept onError action session = _ ↔ ∃ cause, action session = _ ∧ _
  rw [EStateM.adaptExcept]
  cases action session with
  | ok => simp
  | error cause middle =>
    simp only [EStateM.Result.error.injEq]
    constructor
    · rintro ⟨rfl, rfl⟩
      exact ⟨cause, ⟨rfl, rfl⟩, rfl⟩
    · rintro ⟨_, ⟨rfl, rfl⟩, rfl⟩
      exact ⟨rfl, rfl⟩

/-- A loop succeeds if its first round does and then the others. -/
theorem run_mapM_cons_ok_iff {f : α → Action ε β} {entry : α} {entries : List α}
    {values : List β} :
    ((entry :: entries).mapM f).run session = .ok values after ↔
      ∃ value middle more, (f entry).run session = .ok value middle ∧
        (entries.mapM f).run middle = .ok more after ∧ values = value :: more := by
  simp only [List.mapM_cons, run_bind_ok_iff, run_pure, EStateM.Result.ok.injEq]
  constructor
  · rintro ⟨value, middle, hentry, more, _, hmore, rfl, rfl⟩
    exact ⟨value, middle, more, hentry, hmore, rfl⟩
  · rintro ⟨value, middle, more, hentry, hmore, rfl⟩
    exact ⟨value, middle, hentry, more, after, hmore, rfl, rfl⟩

/-! ### Operations on the disk -/

/-- Reading succeeds with what is read, and changes nothing. -/
theorem look_ok_iff {onError : δ → ε} {read : Disk → Except δ α} {value : α} :
    (look onError read).run session = .ok value after ↔
      read session.disk = .ok value ∧ after = session := by
  rw [look, run_bind_of_ok run_get]
  cases read session.disk with
  | ok found => simp [eq_comm]
  | error cause => simp

/-- Reading fails with what is wrong, and changes nothing. -/
theorem look_error_iff {onError : δ → ε} {read : Disk → Except δ α} :
    (look onError read).run session = .error e after ↔
      ∃ cause, read session.disk = .error cause ∧ e = onError cause ∧ after = session := by
  rw [look, run_bind_of_ok run_get]
  cases read session.disk with
  | ok found => simp
  | error cause => simp [eq_comm]

/-- A change succeeds with the changed disk. -/
theorem change_ok_iff {onError : IoError → ε} {step : Disk → Except IoError Disk} {value : Unit} :
    (change onError step).run session = .ok value after ↔
      ∃ disk, step session.disk = .ok disk ∧ after = { session with disk } := by
  simp only [change, run_bind_ok_iff, look_ok_iff]
  constructor
  · rintro ⟨disk, middle, ⟨hstep, rfl⟩, h⟩
    cases h
    exact ⟨disk, hstep, rfl⟩
  · rintro ⟨disk, hstep, rfl⟩
    exact ⟨disk, session, ⟨hstep, rfl⟩, rfl⟩

/-- A change that fails changes nothing. -/
theorem change_error_iff {onError : IoError → ε} {step : Disk → Except IoError Disk} :
    (change onError step).run session = .error e after ↔
      ∃ cause, step session.disk = .error cause ∧ e = onError cause ∧ after = session := by
  simp only [change, run_bind_error_iff, look_error_iff]
  constructor
  · rintro (h | ⟨disk, middle, -, h⟩)
    · exact h
    · cases h
  · exact .inl

/-- Making directories succeeds if all are there then. -/
theorem makeDirs_ok_iff {onError : IoError → ε} {path : Path} {value : Unit} :
    (makeDirs onError path).run session = .ok value after ↔
      (session.disk.makeDirs path).1 = .ok () ∧
        after = { session with disk := (session.disk.makeDirs path).2 } := by
  rw [makeDirs, run_bind_of_ok run_get]
  cases session.disk.makeDirs path with
  | mk result changed =>
    rw [run_bind_of_ok (run_keep changed)]
    cases result with
    | ok => simp [eq_comm]
    | error cause => simp

/-- Making directories that fails keeps those that were made. -/
theorem makeDirs_error_iff {onError : IoError → ε} {path : Path} :
    (makeDirs onError path).run session = .error e after ↔
      ∃ cause, (session.disk.makeDirs path).1 = .error cause ∧ e = onError cause ∧
        after = { session with disk := (session.disk.makeDirs path).2 } := by
  rw [makeDirs, run_bind_of_ok run_get]
  cases session.disk.makeDirs path with
  | mk result changed =>
    rw [run_bind_of_ok (run_keep changed)]
    cases result with
    | ok => simp
    | error cause => simp [eq_comm]

/-- For a standing path no directory has to be made. -/
theorem run_makeDirs {onError : IoError → ε} {path : Path} {location : Location}
    (hstands : session.disk.StandsAt path location) :
    (makeDirs onError path : Action ε Unit).run session = .ok () session := by
  rw [makeDirs_ok_iff, Disk.makeDirs, hstands.makeDirsUpTo]
  exact ⟨rfl, rfl⟩

/-- **Writing below.** Into a standing directory a file is written at once. -/
theorem writeFile_below {onError : IoError → ε} {path parent : Path} {up : Location}
    (hparent : path.parent? = some parent) (hstands : session.disk.StandsAt parent up)
    (text : String) :
    (writeFile onError path text).run session =
      (change onError (·.write path text.toUTF8)).run session := by
  rw [writeFile, hparent]
  exact run_bind_of_ok (run_makeDirs hstands)

/-! ### What actions preserve -/

/-- What holds of the disk before the action holds after it, whether or not it fails. -/
def Preserves (inv : Disk → Prop) (action : Action ε α) : Prop :=
  ∀ session, inv session.disk → inv (finalDisk (action.run session))

variable {inv : Disk → Prop}

theorem preserves_pure (value : α) : Preserves inv (pure value : Action ε α) :=
  fun _ h => h

theorem preserves_throw (e : ε) : Preserves inv (throw e : Action ε α) :=
  fun _ h => h

theorem preserves_tell (event : Event) : Preserves inv (tell event : Action ε Unit) :=
  fun _ h => h

/-- Of two actions, the second one may count on what the first one returned. -/
theorem preserves_bind {action : Action ε α} {next : α → Action ε β}
    (hfirst : Preserves inv action)
    (hnext : ∀ session first middle, inv session.disk → action.run session = .ok first middle →
      inv middle.disk → inv (finalDisk ((next first).run middle))) :
    Preserves inv (action >>= next) := by
  intro session hinv
  have hmiddle := hfirst session hinv
  show inv (finalDisk (EStateM.bind action next session))
  rw [EStateM.bind]
  cases hrun : action session with
  | ok first middle =>
    rw [EStateM.run, hrun] at hmiddle
    exact hnext session first middle hinv hrun hmiddle
  | error e middle =>
    rw [EStateM.run, hrun] at hmiddle
    exact hmiddle

theorem preserves_look (onError : δ → ε) (read : Disk → Except δ α) :
    Preserves inv (look onError read) := by
  intro session hinv
  cases hrun : (look onError read).run session with
  | ok value after =>
    obtain ⟨-, rfl⟩ := look_ok_iff.mp hrun
    exact hinv
  | error e after =>
    obtain ⟨-, -, -, rfl⟩ := look_error_iff.mp hrun
    exact hinv

/-- A change preserves what holds of the changed disk. -/
theorem preserves_change {onError : IoError → ε} {step : Disk → Except IoError Disk}
    (h : ∀ disk changed, inv disk → step disk = .ok changed → inv changed) :
    Preserves inv (change onError step) := by
  intro session hinv
  cases hrun : (change onError step).run session with
  | ok value after =>
    obtain ⟨disk, hstep, rfl⟩ := change_ok_iff.mp hrun
    exact h session.disk disk hinv hstep
  | error e after =>
    obtain ⟨-, -, -, rfl⟩ := change_error_iff.mp hrun
    exact hinv

theorem preserves_makeDirs {onError : IoError → ε} {path : Path}
    (h : ∀ disk, inv disk → inv (disk.makeDirs path).2) :
    Preserves inv (makeDirs onError path) := by
  intro session hinv
  cases hrun : (makeDirs onError path).run session with
  | ok value after =>
    obtain ⟨-, rfl⟩ := makeDirs_ok_iff.mp hrun
    exact h session.disk hinv
  | error e after =>
    obtain ⟨-, -, -, rfl⟩ := makeDirs_error_iff.mp hrun
    exact h session.disk hinv

theorem preserves_adapt {onError : δ → ε} {action : Action δ α} (h : Preserves inv action) :
    Preserves inv (EStateM.adaptExcept onError action) := by
  intro session hinv
  have hfinal := h session hinv
  show inv (finalDisk (EStateM.adaptExcept onError action session))
  rw [EStateM.adaptExcept]
  rw [EStateM.run] at hfinal
  cases hrun : action session <;> rw [hrun] at hfinal <;> exact hfinal

/-- A file written with the directories that lead to it. -/
theorem preserves_writeFile {onError : IoError → ε} {path : Path} {text : String}
    (hdirs : ∀ disk parent, inv disk → path.parent? = some parent → inv (disk.makeDirs parent).2)
    (hwrite : ∀ disk changed, inv disk → disk.write path text.toUTF8 = .ok changed →
      inv changed) :
    Preserves inv (writeFile onError path text : Action ε Unit) := by
  rw [writeFile]
  cases hparent : path.parent? with
  | none => exact preserves_change hwrite
  | some parent =>
    exact preserves_bind (preserves_makeDirs fun disk hinv => hdirs disk parent hinv hparent)
      fun _ _ middle _ _ hinv => preserves_change hwrite middle hinv

/-- A loop preserves what its rounds preserve. -/
theorem preserves_mapM {f : α → Action ε β} {entries : List α}
    (h : ∀ entry ∈ entries, Preserves inv (f entry)) : Preserves inv (entries.mapM f) := by
  induction entries with
  | nil => exact preserves_pure []
  | cons entry entries ih =>
    rw [List.mapM_cons]
    refine preserves_bind (h entry List.mem_cons_self) fun _ value middle _ _ hinv => ?_
    refine preserves_bind (ih fun other hother => h other (List.mem_cons_of_mem _ hother))
      (fun _ values middle _ _ hinv => ?_) middle hinv
    exact preserves_pure _ middle hinv

theorem preserves_forM {f : α → Action ε Unit} {entries : List α}
    (h : ∀ entry ∈ entries, Preserves inv (f entry)) : Preserves inv (entries.forM f) := by
  induction entries with
  | nil => exact preserves_pure ()
  | cons entry entries ih =>
    refine preserves_bind (h entry List.mem_cons_self) fun _ _ middle _ _ hinv => ?_
    exact ih (fun other hother => h other (List.mem_cons_of_mem _ hother)) middle hinv

/-- In a loop that succeeds every round succeeds, and the rounds behind it only add to what it
    left. -/
theorem exists_round_of_mapM (inv : Disk → Prop) {f : α → Action ε β} {entries : List α}
    {values : List β}
    (hstep : ∀ entry ∈ entries, ∀ session : Session, inv session.disk →
      inv (finalDisk ((f entry).run session)) ∧
        session.disk.Grows (finalDisk ((f entry).run session)))
    (hinv : inv session.disk) (hrun : (entries.mapM f).run session = .ok values after) :
    session.disk.Grows after.disk ∧ ∀ entry ∈ entries, ∃ middle value later,
      inv middle.disk ∧ (f entry).run middle = .ok value later ∧
        later.disk.Grows after.disk := by
  induction entries generalizing session values with
  | nil =>
    cases hrun
    exact ⟨.refl _, by simp⟩
  | cons first entries ih =>
    obtain ⟨value, middle, more, hfirst, hmore, rfl⟩ := run_mapM_cons_ok_iff.mp hrun
    have hafter := hstep first List.mem_cons_self session hinv
    rw [hfirst] at hafter
    obtain ⟨hgrows, hrounds⟩ :=
      ih (fun entry hentry => hstep entry (List.mem_cons_of_mem _ hentry)) hafter.1 hmore
    refine ⟨hafter.2.trans hgrows, fun entry hentry => ?_⟩
    rcases List.mem_cons.mp hentry with rfl | hentry
    · exact ⟨session, value, middle, hinv, hfirst, hgrows⟩
    · exact hrounds entry hentry

end Action

end PageLoom
