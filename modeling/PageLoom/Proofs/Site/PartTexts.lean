import PageLoom.Proofs.Site.Stages
import PageLoom.Proofs.Splice.Directives

namespace PageLoom

/-!
# The layout parts, one by one

Loading the layout parts only reads. Each part is the text of its own file with its own directives
applied in order, and the first part that cannot be had ends the loading.

* `Action.Yields` — an action that ends with a result and leaves the disk as it is;
* `applyDirectives_cases` — directives are applied one after the other, or one has no pattern;
* `SiteConfig.partText`, `SiteConfig.partTexts` — the text of a part, and those of all parts;
* `loadFragments_yields` — loading ends with these texts;
* `partTexts_cases` — all parts are there, or the first one that fails is told;
* `loadFragments_keeps_apart` — the two put together, and two loadings compared.
-/

/-! ### Actions that only read -/

/-- The action ends with the result, and leaves the disk as it is. -/
def Action.Yields {ε α : Type} (action : Action ε α) (session : Session) :
    Except ε α → Prop
  | .ok value => ∃ after, action.run session = .ok value after ∧ after.disk = session.disk
  | .error e => ∃ after, action.run session = .error e after ∧ after.disk = session.disk

namespace Action

variable {ε α β : Type} {session : Session} {action : Action ε α} {result : Except ε α}

/-- An action that succeeds yields its value only. -/
theorem Yields.eq_ok {value : α} {after : Session} (h : action.Yields session result)
    (hrun : action.run session = .ok value after) :
    result = .ok value ∧ after.disk = session.disk := by
  cases result with
  | ok found =>
    obtain ⟨last, hfound, hdisk⟩ := h
    cases hfound.symm.trans hrun
    exact ⟨rfl, hdisk⟩
  | error e =>
    obtain ⟨last, hfound, -⟩ := h
    cases hfound.symm.trans hrun

/-- An action that fails yields its error only. -/
theorem Yields.eq_error {e : ε} {after : Session} (h : action.Yields session result)
    (hrun : action.run session = .error e after) :
    result = .error e ∧ after.disk = session.disk := by
  cases result with
  | ok found =>
    obtain ⟨last, hfound, -⟩ := h
    cases hfound.symm.trans hrun
  | error e =>
    obtain ⟨last, hfound, hdisk⟩ := h
    cases hfound.symm.trans hrun
    exact ⟨rfl, hdisk⟩

/-- Of two actions that only read the second one goes on from the result of the first one. -/
theorem yields_bind {next : α → Action ε β} {more : α → Except ε β}
    (h : action.Yields session result)
    (hnext : ∀ value after, after.disk = session.disk → (next value).Yields after (more value)) :
    (action >>= next).Yields session (result >>= more) := by
  cases result with
  | error e =>
    obtain ⟨after, hrun, hdisk⟩ := h
    exact ⟨after, run_bind_error_iff.mpr (.inl hrun), hdisk⟩
  | ok value =>
    obtain ⟨after, hrun, hdisk⟩ := h
    have hmore := hnext value after hdisk
    show (action >>= next).Yields session (more value)
    -- the second action starts where the first one ended, with the same disk
    cases hvalue : more value with
    | ok _ =>
      rw [hvalue] at hmore
      obtain ⟨last, hlast, hkept⟩ := hmore
      exact ⟨last, (run_bind_of_ok hrun).trans hlast, hkept.trans hdisk⟩
    | error _ =>
      rw [hvalue] at hmore
      obtain ⟨last, hlast, hkept⟩ := hmore
      exact ⟨last, (run_bind_of_ok hrun).trans hlast, hkept.trans hdisk⟩

end Action

/-! ### Directives -/

/-- The pattern of the directive's symbol can be compiled. -/
def Directive.Compiles (directive : Directive) : Prop :=
  ∃ needle, Needle.placeholder? directive.symbol.toList = .ok needle

/-- The text with the placeholders of the directive's symbol replaced by its value. -/
def Directive.render (directive : Directive) (text : String) : String :=
  String.ofList (splice (.placeholder directive.symbol.toList) directive.value.toList text.toList)

/-- A directive whose pattern can be compiled renders its text. -/
theorem Directive.apply_of_compiles {directive : Directive} (h : directive.Compiles)
    (text : String) : directive.apply text = .ok (directive.render text) := by
  obtain ⟨needle, hneedle⟩ := h
  rw [Directive.apply, hneedle, eq_placeholder_of_ok hneedle]
  rfl

/-- **Directives in order.** Either all patterns can be compiled, and each directive renders the text
    that the one before left, or the first pattern that cannot be compiled is the failure. -/
theorem applyDirectives_cases (directives : List Directive) (text : String) :
    ((∀ directive ∈ directives, directive.Compiles) ∧
      applyDirectives text directives =
        .ok (directives.foldl (fun text directive => directive.render text) text)) ∨
    ∃ before directive after cause, directives = before ++ directive :: after ∧
      (∀ other ∈ before, other.Compiles) ∧
      Needle.placeholder? directive.symbol.toList = .error cause ∧
      applyDirectives text directives = .error cause := by
  induction directives generalizing text with
  | nil => exact .inl ⟨by simp, rfl⟩
  | cons directive directives ih =>
    rw [applyDirectives, List.foldlM_cons]
    cases hneedle : Needle.placeholder? directive.symbol.toList with
    | error cause =>
      refine .inr ⟨[], directive, directives, cause, rfl, by simp, hneedle, ?_⟩
      rw [Directive.apply, hneedle]
      rfl
    | ok needle =>
      have hcompiles : directive.Compiles := ⟨needle, hneedle⟩
      rw [Directive.apply_of_compiles hcompiles]
      obtain ⟨hall, happly⟩ | ⟨before, other, after, cause, rfl, hbefore, hother, happly⟩ :=
        ih (directive.render text)
      · exact .inl ⟨List.forall_mem_cons.mpr ⟨hcompiles, hall⟩, happly⟩
      · exact .inr ⟨directive :: before, other, after, cause, rfl,
          List.forall_mem_cons.mpr ⟨hcompiles, hbefore⟩, hother, happly⟩

/-! ### Parts -/

namespace SiteConfig

/-- The text of a part: that of its file, with the directives of the part applied. -/
def partText (config : SiteConfig) (disk : Disk) (part : Part) : Except BuildError String := do
  let path := config.layout.partFile part
  let raw ← (disk.readText path).mapError (.read .fragments path)
  match config.directives? part with
  | none => return raw
  | some directives => (applyDirectives raw directives).mapError (.pattern part)

/-- The texts of all parts. The first one that cannot be had is the failure. -/
def partTexts (config : SiteConfig) (disk : Disk) : Except BuildError Fragments := do
  let head ← config.partText disk .head
  let header ← config.partText disk .header
  let sidebar ← config.partText disk .sidebar
  let footer ← config.partText disk .footer
  let script ← config.partText disk .script
  return { head, header, sidebar, footer, script }

/-- The part can be had: its file is a text, and the patterns of its directives can be compiled. -/
def PartReady (config : SiteConfig) (disk : Disk) (part : Part) : Prop :=
  (∃ raw, disk.readText (config.layout.partFile part) = .ok raw) ∧
    ∀ directive ∈ (config.directives? part).getD [], directive.Compiles

/-- Why a part cannot be had: its file is no text, or else it has a first directive whose pattern
    cannot be compiled. -/
inductive PartFault (config : SiteConfig) (disk : Disk) (part : Part) : BuildError → Prop
  | read {cause : IoError} : disk.readText (config.layout.partFile part) = .error cause →
      PartFault config disk part (.read .fragments (config.layout.partFile part) cause)
  | pattern {raw : String} {before after : List Directive} {directive : Directive}
      {cause : SymbolError} : disk.readText (config.layout.partFile part) = .ok raw →
      config.directives? part = some (before ++ directive :: after) →
      (∀ other ∈ before, other.Compiles) →
      Needle.placeholder? directive.symbol.toList = .error cause →
      PartFault config disk part (.pattern part cause)

variable {config : SiteConfig} {disk : Disk} {part : Part}

/-- A part that can be had is its own file with its own directives. -/
theorem partText_of_readText {raw : String}
    (hread : disk.readText (config.layout.partFile part) = .ok raw)
    (hcompiles : ∀ directive ∈ (config.directives? part).getD [], directive.Compiles) :
    config.partText disk part = .ok (((config.directives? part).getD []).foldl
      (fun text directive => directive.render text) raw) := by
  rw [partText, hread]
  cases hdirectives : config.directives? part with
  | none => rfl
  | some directives =>
    rw [hdirectives, Option.getD_some] at hcompiles
    obtain ⟨-, happly⟩ | ⟨before, directive, after, cause, rfl, -, hneedle, -⟩ :=
      applyDirectives_cases directives raw
    · show (applyDirectives raw directives).mapError (BuildError.pattern part) = _
      rw [happly]
      rfl
    · obtain ⟨needle, hok⟩ := hcompiles directive (by simp)
      rw [hneedle] at hok
      cases hok

/-- Nothing is wrong with a part that can be had. -/
theorem PartReady.not_fault (h : config.PartReady disk part) (e : BuildError) :
    ¬config.PartFault disk part e := by
  obtain ⟨⟨raw, hread⟩, hcompiles⟩ := h
  rintro (hcause | ⟨-, hdirectives, -, hneedle⟩)
  · cases hread.symm.trans hcause
  · rw [hdirectives, Option.getD_some] at hcompiles
    obtain ⟨needle, hok⟩ := hcompiles _ (List.mem_append_right _ (List.mem_cons_self ..))
    cases hok.symm.trans hneedle

/-- A part can be had, or the reason why not is told. -/
theorem partText_cases (config : SiteConfig) (disk : Disk) (part : Part) :
    config.PartReady disk part ∨
      ∃ e, config.PartFault disk part e ∧ config.partText disk part = .error e := by
  cases hread : disk.readText (config.layout.partFile part) with
  | error cause =>
    refine .inr ⟨_, .read hread, ?_⟩
    rw [partText, hread]
    rfl
  | ok raw =>
    cases hdirectives : config.directives? part with
    | none => exact .inl ⟨⟨raw, hread⟩, by simp [hdirectives]⟩
    | some directives =>
      obtain ⟨hall, -⟩ | ⟨before, directive, after, cause, rfl, hbefore, hneedle, happly⟩ :=
        applyDirectives_cases directives raw
      · exact .inl ⟨⟨raw, hread⟩, by rwa [hdirectives, Option.getD_some]⟩
      · refine .inr ⟨_, .pattern hread hdirectives hbefore hneedle, ?_⟩
        rw [partText, hread, hdirectives]
        show (applyDirectives raw _).mapError (BuildError.pattern part) = _
        rw [happly]
        rfl

/-- **First failure.** Either all parts can be had, or the texts end with what is wrong with the
    earliest part that cannot. -/
theorem partTexts_cases (config : SiteConfig) (disk : Disk) :
    ((∀ part, config.PartReady disk part) ∧
      ∃ fragments, config.partTexts disk = .ok fragments ∧
        ∀ part, config.partText disk part = .ok (fragments.part part)) ∨
    ∃ earlier part later e, Part.all = earlier ++ part :: later ∧
      (∀ other ∈ earlier, config.PartReady disk other) ∧ config.PartFault disk part e ∧
      config.partTexts disk = .error e := by
  have hready : ∀ {part}, config.PartReady disk part →
      ∃ text, config.partText disk part = .ok text :=
    fun ⟨⟨_, hread⟩, hcompiles⟩ => ⟨_, partText_of_readText hread hcompiles⟩
  unfold partTexts
  rcases config.partText_cases disk .head with hhead | ⟨e, hfault, htext⟩
  rotate_left
  · refine .inr ⟨[], .head, _, e, rfl, by simp, hfault, ?_⟩
    rw [htext]
    rfl
  obtain ⟨head, htext₁⟩ := hready hhead
  rw [htext₁]
  rcases config.partText_cases disk .header with hheader | ⟨e, hfault, htext⟩
  rotate_left
  · refine .inr ⟨[.head], .header, _, e, rfl, by simp [hhead], hfault, ?_⟩
    rw [htext]
    rfl
  obtain ⟨header, htext₂⟩ := hready hheader
  rw [htext₂]
  rcases config.partText_cases disk .sidebar with hsidebar | ⟨e, hfault, htext⟩
  rotate_left
  · refine .inr ⟨[.head, .header], .sidebar, _, e, rfl, by simp [hhead, hheader], hfault, ?_⟩
    rw [htext]
    rfl
  obtain ⟨sidebar, htext₃⟩ := hready hsidebar
  rw [htext₃]
  rcases config.partText_cases disk .footer with hfooter | ⟨e, hfault, htext⟩
  rotate_left
  · refine .inr ⟨[.head, .header, .sidebar], .footer, _, e, rfl,
      by simp [hhead, hheader, hsidebar], hfault, ?_⟩
    rw [htext]
    rfl
  obtain ⟨footer, htext₄⟩ := hready hfooter
  rw [htext₄]
  rcases config.partText_cases disk .script with hscript | ⟨e, hfault, htext⟩
  rotate_left
  · refine .inr ⟨[.head, .header, .sidebar, .footer], .script, [], e, rfl,
      by simp [hhead, hheader, hsidebar, hfooter], hfault, ?_⟩
    rw [htext]
    rfl
  obtain ⟨script, htext₅⟩ := hready hscript
  rw [htext₅]
  refine .inl ⟨fun part => ?_, ⟨head, header, sidebar, footer, script⟩, rfl, fun part => ?_⟩
  · cases part with
    | head => exact hhead
    | header => exact hheader
    | sidebar => exact hsidebar
    | footer => exact hfooter
    | script => exact hscript
  · cases part with
    | head => exact htext₁
    | header => exact htext₂
    | sidebar => exact htext₃
    | footer => exact htext₄
    | script => exact htext₅

end SiteConfig

/-! ### Loading -/

variable {config : SiteConfig} {session : Session}

/-- Loading a part ends with its text. -/
theorem loadPart_yields (config : SiteConfig) (session : Session) (part : Part) :
    (loadPart config part).Yields session (config.partText session.disk part) := by
  rw [SiteConfig.partText]
  cases hread : session.disk.readText (config.layout.partFile part) with
  | error cause =>
    have hlook : (Action.look (BuildError.read .fragments (config.layout.partFile part))
        (·.readText (config.layout.partFile part))).run session =
        .error (.read .fragments (config.layout.partFile part) cause) session :=
      Action.look_error_iff.mpr ⟨cause, hread, rfl, rfl⟩
    exact ⟨session, Action.run_bind_error_iff.mpr (.inl hlook), rfl⟩
  | ok raw =>
    have hlook : (Action.look (BuildError.read .fragments (config.layout.partFile part))
        (·.readText (config.layout.partFile part))).run session = .ok raw session :=
      Action.look_ok_iff.mpr ⟨hread, rfl⟩
    cases hdirectives : config.directives? part with
    | none =>
      refine ⟨session, ?_, rfl⟩
      rw [loadPart, Action.run_bind_of_ok hlook, hdirectives]
      rfl
    | some directives =>
      show (loadPart config part).Yields session
        ((applyDirectives raw directives).mapError (.pattern part))
      let told : Session :=
        { session with log := session.log ++ [.applying directives.length part] }
      cases happly : applyDirectives raw directives with
      | ok text =>
        refine ⟨told, ?_, rfl⟩
        rw [loadPart, Action.run_bind_of_ok hlook, hdirectives]
        simp only [Action.run_tell_bind, happly]
        rfl
      | error cause =>
        refine ⟨told, ?_, rfl⟩
        rw [loadPart, Action.run_bind_of_ok hlook, hdirectives]
        simp only [Action.run_tell_bind, happly]
        rfl

/-- Loading the parts ends with their texts. -/
theorem loadFragments_yields (config : SiteConfig) (session : Session) :
    (loadFragments config).Yields session (config.partTexts session.disk) := by
  have hpart : ∀ part (now : Session), now.disk = session.disk →
      (loadPart config part).Yields now (config.partText session.disk part) := by
    intro part now hdisk
    rw [← hdisk]
    exact loadPart_yields config now part
  unfold loadFragments SiteConfig.partTexts
  generalize config.partText session.disk = texts at hpart
  refine Action.yields_bind (hpart .head session rfl) fun head s₁ hd₁ => ?_
  refine Action.yields_bind (hpart .header s₁ hd₁) fun header s₂ hd₂ => ?_
  have hd₂ := hd₂.trans hd₁
  refine Action.yields_bind (hpart .sidebar s₂ hd₂) fun sidebar s₃ hd₃ => ?_
  have hd₃ := hd₃.trans hd₂
  refine Action.yields_bind (hpart .footer s₃ hd₃) fun footer s₄ hd₄ => ?_
  have hd₄ := hd₄.trans hd₃
  refine Action.yields_bind (hpart .script s₄ hd₄) fun script s₅ _ => ?_
  exact ⟨s₅, rfl, rfl⟩

/-- Parts that were loaded were ready, and are their files with their directives. -/
theorem ready_of_loadFragments {fragments : Fragments} {after : Session}
    (hrun : (loadFragments config).run session = .ok fragments after) :
    after.disk = session.disk ∧ ∀ part, config.PartReady session.disk part ∧
      ∃ raw, session.disk.readText (config.layout.partFile part) = .ok raw ∧
        fragments.part part = ((config.directives? part).getD []).foldl
          (fun text directive => directive.render text) raw := by
  obtain ⟨htexts, hdisk⟩ := (loadFragments_yields config session).eq_ok hrun
  obtain ⟨hready, found, hfound, hpart⟩ | ⟨_, _, _, _, _, _, _, herror⟩ :=
    config.partTexts_cases session.disk
  · cases hfound.symm.trans htexts
    refine ⟨hdisk, fun part => ⟨hready part, ?_⟩⟩
    obtain ⟨⟨raw, hread⟩, hcompiles⟩ := hready part
    have htext := hpart part
    rw [SiteConfig.partText_of_readText hread hcompiles] at htext
    exact ⟨raw, hread, (Except.ok.inj htext).symm⟩
  · cases herror.symm.trans htexts

/-- **Parts kept apart.** Loading the layout parts leaves the disk as it is, and each part is a file
    of its own. Loading succeeds if and only if the file of every part is a text and every pattern of
    its directives can be compiled. Then each part is its file with its own directives applied in
    order, and the scripts are their file as it is. Otherwise the error is that of the earliest part
    that cannot be had. So two loadings that differ in the file and the directives of one part only
    differ in that part only. -/
theorem loadFragments_keeps_apart (config : SiteConfig) (session : Session) :
    (∀ part, config.layout.partFile part =
      config.build.source.joinAll ["parts", part.name, part.name ++ ".html"]) ∧
    ((∃ fragments after, (loadFragments config).run session = .ok fragments after) ↔
      ∀ part, config.PartReady session.disk part) ∧
    (∀ fragments after, (loadFragments config).run session = .ok fragments after →
      after.disk = session.disk ∧
      session.disk.readText (config.layout.partFile .script) = .ok fragments.script ∧
      ∀ part, ∃ raw, session.disk.readText (config.layout.partFile part) = .ok raw ∧
        fragments.part part = ((config.directives? part).getD []).foldl
          (fun text directive => directive.render text) raw) ∧
    (∀ e after, (loadFragments config).run session = .error e after →
      after.disk = session.disk ∧
      ∃ earlier part later, Part.all = earlier ++ part :: later ∧
        (∀ other ∈ earlier, config.PartReady session.disk other) ∧
        config.PartFault session.disk part e) ∧
    ∀ (other : SiteConfig) (session' : Session) (changed : Part),
      (∀ part ≠ changed, other.directives? part = config.directives? part ∧
        session'.disk.readText (other.layout.partFile part) =
          session.disk.readText (config.layout.partFile part)) →
      ∀ fragments after fragments' after',
        (loadFragments config).run session = .ok fragments after →
        (loadFragments other).run session' = .ok fragments' after' →
        ∀ part ≠ changed, fragments'.part part = fragments.part part := by
  refine ⟨fun part => rfl, ⟨fun ⟨_, _, hrun⟩ part => ((ready_of_loadFragments hrun).2 part).1, ?_⟩,
    fun fragments after hrun => ?_, fun e after hrun => ?_, ?_⟩
  · intro hready
    have hyields := loadFragments_yields config session
    obtain ⟨-, fragments, hfound, -⟩ | ⟨_, part, _, e, _, _, hfault, -⟩ :=
      config.partTexts_cases session.disk
    · rw [hfound] at hyields
      obtain ⟨after, hrun, -⟩ := hyields
      exact ⟨fragments, after, hrun⟩
    · exact absurd hfault ((hready part).not_fault e)
  · obtain ⟨hdisk, hloaded⟩ := ready_of_loadFragments hrun
    obtain ⟨-, raw, hread, hscript⟩ := hloaded .script
    rw [show raw = fragments.script from hscript.symm] at hread
    exact ⟨hdisk, hread, fun part => (hloaded part).2⟩
  · obtain ⟨htexts, hdisk⟩ := (loadFragments_yields config session).eq_error hrun
    obtain ⟨-, fragments, hfound, -⟩ | ⟨earlier, part, later, cause, hall, hready, hfault, herror⟩ :=
      config.partTexts_cases session.disk
    · cases hfound.symm.trans htexts
    · cases herror.symm.trans htexts
      exact ⟨hdisk, earlier, part, later, hall, hready, hfault⟩
  · intro other session' changed hsame fragments after fragments' after' hrun hrun' part hpart
    obtain ⟨hdirectives, hread⟩ := hsame part hpart
    obtain ⟨-, raw, hraw, htext⟩ := (ready_of_loadFragments hrun).2 part
    obtain ⟨-, raw', hraw', htext'⟩ := (ready_of_loadFragments hrun').2 part
    rw [hread, hraw] at hraw'
    rw [htext, htext', hdirectives, Except.ok.inj hraw']

end PageLoom
