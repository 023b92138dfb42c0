import Mathlib.Data.List.Perm.Basic
import PageLoom.Proofs.Disk.Agree
import PageLoom.Proofs.Site.Session

namespace PageLoom

/-!
# Loops in any order

If each round of a loop works in a region of its own, then it does in the loop what it would do
alone. So the loop may go through its rounds in any order.

* `Disk.Alike` — two disks that one action cannot tell apart;
* `Action.Follows` — what one action does in a region, another one does, too;
* `Action.Confined` — an action that works in a region, and by what is there;
* `Action.mapM_alone`, `Action.mapM_of_alone` — rounds in a loop and rounds alone;
* `Action.mapM_reorder`, `Action.forM_reorder` — the same rounds in another order.
-/

/-- Two disks agree on a region, and both have an invariant. -/
structure Disk.Alike (inv : Disk → Prop) (on : Location → Prop) (disk other : Disk) : Prop where
  left : inv disk
  right : inv other
  agree : AgreeOn on disk other

namespace Action

variable {ε α β : Type} {inv : Disk → Prop} {on : Location → Prop}

/-- On disks that are alike, where the first action succeeds the second one does, with the same
    value, and the disks stay alike. -/
def Follows (inv : Disk → Prop) (on : Location → Prop) (first second : Action ε β) : Prop :=
  ∀ ⦃session other : Session⦄ ⦃value : β⦄ ⦃after : Session⦄,
    Disk.Alike inv on session.disk other.disk → first.run session = .ok value after →
    ∃ after', second.run other = .ok value after' ∧ Disk.Alike inv on after.disk after'.disk

/-- The action changes a region only, and what it does there is decided by what is there. -/
structure Confined (inv : Disk → Prop) (on : Location → Prop) (action : Action ε β) : Prop where
  stays : ∀ {session : Session} {value : β} {after : Session}, inv session.disk →
    action.run session = .ok value after → Disk.AgreeOn (¬ on ·) session.disk after.disk
  follows : Follows inv on action action

/-- An action that is confined keeps the invariant. -/
theorem Confined.keeps {action : Action ε β} (h : Confined inv on action) {session : Session}
    {value : β} {after : Session} (hinv : inv session.disk)
    (hrun : action.run session = .ok value after) : inv after.disk := by
  obtain ⟨_, -, halike⟩ := h.follows ⟨hinv, hinv, .refl _ _⟩ hrun
  exact halike.left

/-- The regions of the entries have no place in common. -/
def RegionsApart (region : α → Location → Prop) (entries : List α) : Prop :=
  entries.Pairwise fun entry other => ∀ location, region entry location → ¬ region other location

variable {region : α → Location → Prop} {f g : α → Action ε β} {entries first second : List α}
  {values : List β} {session after : Session}

theorem RegionsApart.perm (h : RegionsApart region first) (hperm : first.Perm second) :
    RegionsApart region second :=
  hperm.pairwise h fun hapart location hsecond hfirst => hapart location hfirst hsecond

/-- **Rounds in a loop.** Each round does in a loop what it does alone. -/
theorem mapM_alone (hconfined : ∀ entry ∈ entries, Confined inv (region entry) (f entry))
    (hapart : RegionsApart region entries) (hinv : inv session.disk)
    (hrun : (entries.mapM f).run session = .ok values after) :
    inv after.disk ∧
      List.Forall₂ (fun entry value => ∃ own, (f entry).run session = .ok value own) entries values ∧
      (∀ entry ∈ entries, ∃ value own, (f entry).run session = .ok value own ∧
        Disk.AgreeOn (region entry) own.disk after.disk) ∧
      Disk.AgreeOn (fun location => ∀ entry ∈ entries, ¬ region entry location)
        session.disk after.disk := by
  induction entries generalizing session values with
  | nil =>
    cases hrun
    exact ⟨hinv, .nil, by simp, .refl _ _⟩
  | cons entry entries ih =>
    obtain ⟨value, middle, more, hentry, hmore, rfl⟩ := run_mapM_cons_ok_iff.mp hrun
    obtain ⟨hhead, hothers⟩ := List.forall_mem_cons.mp hconfined
    obtain ⟨hfirst, hrest⟩ := List.pairwise_cons.mp hapart
    have hmiddle := hhead.keeps hinv hentry
    have hframe := hhead.stays hinv hentry
    obtain ⟨hafter, hvalues, hregions, houtside⟩ := ih hothers hrest hmiddle hmore
    -- The first round leaves the regions of the others alone, so these do the same without it.
    have hback : ∀ other ∈ entries, ∀ value own, (f other).run middle = .ok value own →
        ∃ own', (f other).run session = .ok value own' ∧
          Disk.AgreeOn (region other) own.disk own'.disk := by
      intro other hother value own hown
      have hkept : Disk.AgreeOn (region other) middle.disk session.disk :=
        (hframe.mono fun location hin hhere => hfirst other hother location hhere hin).symm
      obtain ⟨own', hown', halike⟩ :=
        (hothers other hother).follows ⟨hmiddle, hinv, hkept⟩ hown
      exact ⟨own', hown', halike.agree⟩
    refine ⟨hafter, .cons ⟨middle, hentry⟩ ?_, fun other hother => ?_, ?_⟩
    · refine ((List.forall₂_and_left _ _).mpr ⟨fun _ => id, hvalues⟩).imp ?_
      rintro other value ⟨hother, own, hown⟩
      obtain ⟨own', hown', -⟩ := hback other hother value own hown
      exact ⟨own', hown'⟩
    · rcases List.mem_cons.mp hother with rfl | hother
      · exact ⟨value, middle, hentry, houtside.mono fun location hin later hlater =>
          hfirst later hlater location hin⟩
      · obtain ⟨value, own, hown, hafter⟩ := hregions other hother
        obtain ⟨own', hown', hsame⟩ := hback other hother value own hown
        exact ⟨value, own', hown', hsame.symm.trans hafter⟩
    · refine (hframe.mono ?_).trans (houtside.mono ?_)
      · exact fun location hout => hout entry List.mem_cons_self
      · exact fun location hout other hother => hout other (List.mem_cons_of_mem _ hother)

/-- Rounds that succeed alone succeed in a loop. -/
theorem mapM_of_alone (hconfined : ∀ entry ∈ entries, Confined inv (region entry) (f entry))
    (hapart : RegionsApart region entries) (hinv : inv session.disk)
    (halone : List.Forall₂ (fun entry value => ∃ own, (f entry).run session = .ok value own)
      entries values) :
    ∃ after, (entries.mapM f).run session = .ok values after := by
  induction entries generalizing session values with
  | nil =>
    cases halone
    exact ⟨session, rfl⟩
  | cons entry entries ih =>
    obtain ⟨hhead, hothers⟩ := List.forall_mem_cons.mp hconfined
    obtain ⟨hfirst, hrest⟩ := List.pairwise_cons.mp hapart
    cases halone with
    | @cons _ value _ more hentry hmore =>
      obtain ⟨middle, hentry⟩ := hentry
      have hmiddle := hhead.keeps hinv hentry
      have hframe := hhead.stays hinv hentry
      have hlater : List.Forall₂ (fun entry value => ∃ own, (f entry).run middle = .ok value own)
          entries more := by
        refine ((List.forall₂_and_left _ _).mpr ⟨fun _ => id, hmore⟩).imp ?_
        rintro other value ⟨hother, own, hown⟩
        have hkept : Disk.AgreeOn (region other) session.disk middle.disk :=
          hframe.mono fun location hin hhere => hfirst other hother location hhere hin
        obtain ⟨own', hown', -⟩ := (hothers other hother).follows ⟨hinv, hmiddle, hkept⟩ hown
        exact ⟨own', hown'⟩
      obtain ⟨after, hafter⟩ := ih hothers hrest hmiddle hlater
      exact ⟨after, run_mapM_cons_ok_iff.mpr ⟨value, middle, more, hentry, hafter, rfl⟩⟩

/-- **Other orders.** A loop whose rounds work in regions of their own may go through them in another
    order: it succeeds, too, with the same values and the same changes. -/
theorem mapM_reorder (hperm : first.Perm second) (hapart : RegionsApart region first)
    (hf : ∀ entry ∈ first, Confined inv (region entry) (f entry))
    (hg : ∀ entry ∈ first, Confined inv (region entry) (g entry))
    (hfollows : ∀ entry ∈ first, Follows inv (region entry) (f entry) (g entry))
    (hin : ∀ entry ∈ first, ∀ location, region entry location → on location)
    (hrun : (first.mapM f).run session = .ok values after) (other : Session)
    (halike : Disk.Alike inv on session.disk other.disk) :
    ∃ values' after', (second.mapM g).run other = .ok values' after' ∧ values.Perm values' ∧
      Disk.Alike inv on after.disk after'.disk := by
  obtain ⟨hafter, hvalues, hregions, houtside⟩ := mapM_alone hf hapart halike.left hrun
  have hsame : ∀ entry ∈ first, ∀ value own, (f entry).run session = .ok value own →
      ∃ own', (g entry).run other = .ok value own' ∧
        Disk.AgreeOn (region entry) own.disk own'.disk := by
    intro entry hentry value own hown
    obtain ⟨own', hown', hboth⟩ := hfollows entry hentry
      ⟨halike.left, halike.right, halike.agree.mono (hin entry hentry)⟩ hown
    exact ⟨own', hown', hboth.agree⟩
  have hfollowed : List.Forall₂ (fun entry value => ∃ own, (g entry).run other = .ok value own)
      first values := by
    refine ((List.forall₂_and_left _ _).mpr ⟨fun _ => id, hvalues⟩).imp ?_
    rintro entry value ⟨hentry, own, hown⟩
    obtain ⟨own', hown', -⟩ := hsame entry hentry value own hown
    exact ⟨own', hown'⟩
  -- The rounds succeed alone in any order, so they do in a loop.
  obtain ⟨values', hvalues', hperm'⟩ := List.perm_comp_forall₂ hperm.symm hfollowed
  have hg' : ∀ entry ∈ second, Confined inv (region entry) (g entry) :=
    fun entry hentry => hg entry (hperm.mem_iff.mpr hentry)
  obtain ⟨after', hrun'⟩ := mapM_of_alone hg' (hapart.perm hperm) halike.right hvalues'
  obtain ⟨hafter', -, hregions', houtside'⟩ :=
    mapM_alone hg' (hapart.perm hperm) halike.right hrun'
  refine ⟨values', after', hrun', hperm'.symm, hafter, hafter', ?_, fun location hon => ?_⟩
  · rw [houtside'.home, halike.agree.home, houtside.home]
  -- A place is in the region of one of the rounds, or none of them changed it.
  by_cases hplace : ∃ entry ∈ first, region entry location
  · obtain ⟨entry, hentry, hregion⟩ := hplace
    obtain ⟨value, own, hown, hleft⟩ := hregions entry hentry
    obtain ⟨value', own', hown', hright⟩ := hregions' entry (hperm.mem_iff.mp hentry)
    obtain ⟨again, hagain, hboth⟩ := hsame entry hentry value own hown
    cases hagain.symm.trans hown'
    rw [hright.node _ hregion, hboth.node _ hregion, hleft.node _ hregion]
  · have hnone : ∀ entry ∈ first, ¬ region entry location :=
      fun entry hentry hregion => hplace ⟨entry, hentry, hregion⟩
    rw [houtside'.node _ fun entry hentry => hnone entry (hperm.mem_iff.mpr hentry),
      halike.agree.node _ hon, houtside.node _ hnone]

/-- A loop without values runs as one with them. -/
theorem run_forM_ok_iff {f : α → Action ε Unit} {value : Unit} :
    (entries.forM f).run session = .ok value after ↔
      ∃ values, (entries.mapM f).run session = .ok values after := by
  induction entries generalizing session with
  | nil =>
    constructor
    · rintro ⟨⟩
      exact ⟨[], rfl⟩
    · rintro ⟨values, ⟨⟩⟩
      rfl
  | cons entry entries ih =>
    show ((f entry >>= fun _ => entries.forM f).run session = _) ↔ _
    simp only [run_bind_ok_iff, run_mapM_cons_ok_iff, ih]
    constructor
    · rintro ⟨value, middle, hentry, more, hmore⟩
      exact ⟨value :: more, value, middle, more, hentry, hmore, rfl⟩
    · rintro ⟨_, value, middle, more, hentry, hmore, -⟩
      exact ⟨value, middle, hentry, more, hmore⟩

/-- A loop without values may go through its rounds in another order, too. -/
theorem forM_reorder {f : α → Action ε Unit} {value : Unit} (hperm : first.Perm second)
    (hapart : RegionsApart region first)
    (hf : ∀ entry ∈ first, Confined inv (region entry) (f entry))
    (hin : ∀ entry ∈ first, ∀ location, region entry location → on location)
    (hrun : (first.forM f).run session = .ok value after) (other : Session)
    (halike : Disk.Alike inv on session.disk other.disk) :
    ∃ after', (second.forM f).run other = .ok value after' ∧
      Disk.Alike inv on after.disk after'.disk := by
  obtain ⟨values, hvalues⟩ := run_forM_ok_iff.mp hrun
  obtain ⟨values', after', hrun', -, hafter⟩ := mapM_reorder hperm hapart hf hf
    (fun entry hentry => (hf entry hentry).follows) hin hvalues other halike
  exact ⟨after', run_forM_ok_iff.mpr ⟨values', hrun'⟩, hafter⟩

end Action

end PageLoom
