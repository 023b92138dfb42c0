import Mathlib.Data.List.Induction
import PageLoom.Proofs.Disk.Changes
import PageLoom.Site.Copy

namespace PageLoom

/-!
# Paths below a path

* `Path.joinAll` — a path continued by names, one after the other;
* `relativeText` — the same names as a text, and `join_relativeText`, that both continue a path
  alike;
* `Disk.HoldsBytes`, `Disk.HoldsText` — what the file holds that a path leads to;
* `Disk.HoldsDir` — that a path leads to a directory;
* `Disk.pathLeads_joinAll` — where a path leads that was continued by names.
-/

/-- The path continued by names, one after the other. -/
def Path.joinAll (path : Path) (names : List String) : Path :=
  names.foldl Path.join path

/-- The names as the way from a directory to what is below it. -/
def relativeText (names : List String) : String :=
  names.foldl entryBelow ""

namespace Path

variable {path : Path} {name : String} {names : List String}

@[simp] theorem joinAll_nil (path : Path) : path.joinAll [] = path := rfl

theorem joinAll_cons (path : Path) (name : String) (names : List String) :
    path.joinAll (name :: names) = (path.join name).joinAll names := rfl

theorem joinAll_append (path : Path) (names more : List String) :
    path.joinAll (names ++ more) = (path.joinAll names).joinAll more :=
  List.foldl_append

theorem joinAll_concat (path : Path) (names : List String) (name : String) :
    path.joinAll (names ++ [name]) = (path.joinAll names).join name :=
  path.joinAll_append names [name]

end Path

/-! ### Names as a text -/

theorem relativeText_concat (names : List String) (name : String) :
    relativeText (names ++ [name]) = entryBelow (relativeText names) name :=
  List.foldl_append

/-- The text starts and ends in a name, if it is not empty. -/
def IsTight (text : String) : Prop :=
  ¬ text.toList.head? = some '/' ∧ ¬ text.toList.getLast? = some '/'

theorem isTight_of_isName {name : String} (h : IsName name) : IsTight name :=
  ⟨fun hhead => h.2.1 (List.mem_of_mem_head? hhead), fun hlast => h.2.1 (List.mem_of_getLast? hlast)⟩

/-- A name behind a tight text gives a tight text. -/
theorem isTight_entryBelow {relative name : String} (h : IsTight relative) (hname : IsName name) :
    IsTight (entryBelow relative name) := by
  rw [entryBelow]
  split
  · exact isTight_of_isName hname
  · rename_i hne
    have hlist : relative.toList ≠ [] := by simpa using hne
    constructor
    · simp only [String.toList_append]
      rw [List.append_assoc, List.head?_append_of_ne_nil _ hlist]
      exact h.1
    · simp only [String.toList_append]
      rw [List.getLast?_append_of_ne_nil _ hname.1]
      exact (isTight_of_isName hname).2

theorem isTight_relativeText {names : List String} (h : ∀ name ∈ names, IsName name) :
    IsTight (relativeText names) := by
  induction names using List.reverseRecOn with
  | nil => simp [relativeText, IsTight]
  | append_singleton names name ih =>
    rw [relativeText_concat]
    exact isTight_entryBelow (ih fun other hother => h other (List.mem_append_left _ hother))
      (h name (by simp))

namespace Path

/-- What stands before a text that the path is continued by. -/
def lead (path : Path) : String :=
  if path.text.isEmpty || path.text.toList.getLast? = some '/' then path.text else path.text ++ "/"

/-- A path continued by a text is the text behind the path. -/
theorem join_eq_lead (path : Path) {tail : String} (h : ¬ tail.toList.head? = some '/') :
    path.join tail = ⟨path.lead ++ tail⟩ := by
  rw [join, if_neg h, lead]
  split <;> rfl

/-- The empty text does not continue a path. -/
theorem lead_join_empty (path : Path) : (path.join "").lead = path.lead := by
  rw [path.join_eq_lead (by simp), String.append_empty, lead]
  refine if_pos ?_
  rw [lead]
  split
  · rename_i hend
    exact hend
  · simp

/-- What stands before a text that comes behind a tight one. -/
theorem lead_join (path : Path) {tail : String} (h : IsTight tail) (hne : tail.toList ≠ []) :
    (path.join tail).lead = path.lead ++ tail ++ "/" := by
  -- A text that ends in a name gets a slash of its own.
  have hlast : ¬ (path.lead ++ tail).toList.getLast? = some '/' := by
    rw [String.toList_append, List.getLast?_append_of_ne_nil _ hne]
    exact h.2
  have hempty : ¬ path.lead ++ tail = "" := fun htext =>
    hne (by simp [(String.append_eq_empty_iff.mp htext).2])
  rw [path.join_eq_lead h.1, lead, if_neg]
  rw [Bool.or_eq_true, String.isEmpty_iff, decide_eq_true_eq]
  exact not_or.mpr ⟨hempty, hlast⟩

/-- A path continued by a text and by a name behind it. -/
theorem join_entryBelow (path : Path) {relative name : String} (h : IsTight relative)
    (hname : IsName name) :
    path.join (entryBelow relative name) = (path.join relative).join name := by
  have htight := isTight_of_isName hname
  rw [join_eq_lead _ (isTight_entryBelow h hname).1, join_eq_lead _ htight.1, entryBelow]
  by_cases hempty : relative = ""
  · subst hempty
    rw [if_pos (by rfl), lead_join_empty]
  · rw [if_neg (by simpa using hempty), path.lead_join h (by simpa using hempty)]
    simp [String.append_assoc]

/-- A path continued by the text of some names is continued by one name more. -/
theorem join_relativeText_concat (path : Path) {names : List String} {name : String}
    (h : ∀ name ∈ names, IsName name) (hname : IsName name) :
    path.join (relativeText (names ++ [name])) = (path.join (relativeText names)).join name := by
  rw [relativeText_concat]
  exact path.join_entryBelow (isTight_relativeText h) hname

end Path

/-- **Relative texts.** Names continue a path as one text as they do one after the other. -/
theorem Path.join_relativeText (path : Path) {names : List String}
    (h : ∀ name ∈ names, IsName name) :
    path.join (relativeText names) = (path.join "").joinAll names := by
  induction names using List.reverseRecOn with
  | nil => rfl
  | append_singleton names name ih =>
    have hnames : ∀ other ∈ names, IsName other := fun other hother =>
      h other (List.mem_append_left _ hother)
    rw [joinAll_concat, ← ih hnames]
    exact path.join_relativeText_concat hnames (h name (by simp))

/-- The names are the segments of their text. -/
theorem segments_relativeText {names : List String} (h : ∀ name ∈ names, IsName name)
    (hne : names ≠ []) : segments (relativeText names).toList = names.map String.toList := by
  induction names using List.reverseRecOn with
  | nil => exact absurd rfl hne
  | append_singleton names name ih =>
    have hname := h name (by simp)
    rw [relativeText_concat]
    by_cases hnames : names = []
    · -- A single name stands without a slash.
      subst hnames
      exact segments_of_not_mem hname.2.1
    · have hsegments := ih (fun other hother => h other (List.mem_append_left _ hother)) hnames
      have hempty : ¬ (relativeText names).isEmpty = true := by
        rw [String.isEmpty_iff]
        intro hempty
        rw [hempty] at hsegments
        obtain ⟨first, more, rfl⟩ := List.exists_cons_of_ne_nil hnames
        exact (h first (by simp)).1 (List.cons.inj hsegments).1.symm
      rw [entryBelow, if_neg hempty, String.toList_append, String.toList_append, List.append_assoc]
      show segments (_ ++ '/' :: name.toList) = _
      rw [segments_append_slash, hsegments, segments_of_not_mem hname.2.1]
      simp

/-- A path continued by at least one name is continued by the names as one text. -/
theorem Path.joinAll_eq_join (path : Path) {names : List String} (h : ∀ name ∈ names, IsName name)
    (hne : names ≠ []) : path.joinAll names = path.join (relativeText names) := by
  obtain ⟨name, more, rfl⟩ := List.exists_cons_of_ne_nil hne
  have hhead := (isTight_of_isName (h name List.mem_cons_self)).1
  rw [path.join_relativeText h, joinAll_cons, joinAll_cons, join_eq_lead _ hhead,
    join_eq_lead _ hhead, lead_join_empty]

/-- Different names continue a path differently. -/
theorem Path.joinAll_inj {path : Path} {names others : List String}
    (h : ∀ name ∈ names, IsName name) (hne : names ≠ [])
    (h' : ∀ name ∈ others, IsName name) (hne' : others ≠ [])
    (heq : path.joinAll names = path.joinAll others) : names = others := by
  rw [path.joinAll_eq_join h hne, path.joinAll_eq_join h' hne',
    join_eq_lead _ (isTight_relativeText h).1, join_eq_lead _ (isTight_relativeText h').1] at heq
  have htext : relativeText names = relativeText others :=
    String.append_right_inj _ |>.mp (congrArg Path.text heq)
  have hsegments := segments_relativeText h hne
  rw [htext, segments_relativeText h' hne'] at hsegments
  exact List.map_injective_iff.mpr (fun _ _ => String.toList_inj.mp) hsegments.symm

/-! ### The empty text -/

namespace Path

/-- A path that ends in a name, continued by the empty text, ends in a slash. -/
theorem join_join_empty (path : Path) {name : String} (h : IsName name) :
    (path.join name).join "" = ⟨(path.join name).text ++ "/"⟩ := by
  have htight := isTight_of_isName h
  rw [join_eq_lead _ (by simp), String.append_empty, path.lead_join htight h.1,
    path.join_eq_lead htight.1]

/-- The empty text continues a path by one slash, if there is none at its end already. -/
theorem join_empty_cases (path : Path) :
    path.join "" = path ∨ path.text.toList ≠ [] ∧ ¬ path.text.toList.getLast? = some '/' ∧
      (path.join "").text.toList = path.text.toList ++ ['/'] := by
  rw [path.join_eq_lead (by simp), String.append_empty, lead]
  split
  · exact .inl rfl
  · rename_i hopen
    rw [Bool.or_eq_true, decide_eq_true_eq, not_or] at hopen
    exact .inr ⟨by simpa using hopen.1, hopen.2, String.toList_append⟩

/-- The slash does not change the parent. -/
theorem parent?_join_empty (path : Path) : (path.join "").parent? = path.parent? := by
  obtain hsame | ⟨-, -, htext⟩ := path.join_empty_cases
  · rw [hsame]
  · obtain ⟨first, more, hparts⟩ := List.exists_cons_of_ne_nil (segments_ne_nil path.text.toList)
    have htrim : trimSegments (first :: more ++ [[]]) = trimSegments (first :: more) := by
      simp [trimSegments, isSilent]
    rw [parent?, parent?, htext, segments_append_slash, hparts, segments, htrim]

/-- The slash does not change the way. -/
theorem trims_join_empty (path : Path) : (path.join "").Trims path := by
  obtain hsame | ⟨hne, hend, htext⟩ := path.join_empty_cases
  · rw [hsame]
    exact .refl path
  · obtain ⟨more, hlong⟩ := exists_stepsOf_append_slashes hne hend 1
    obtain ⟨less, hshort⟩ := exists_stepsOf_append_slashes hne hend 0
    rw [List.replicate_zero, List.append_nil] at hshort
    refine ⟨⟨_, more, less, ?_, hshort⟩, ?_, ⟨_, htext⟩, fun hempty => absurd hempty hne⟩
    · rw [steps, htext]
      exact hlong
    · rw [isAbsolute, isAbsolute, htext, List.head?_append_of_ne_nil _ hne]

/-- A path that ends in a name is not empty. -/
theorem toList_join_ne_nil (path : Path) {name : String} (h : IsName name) :
    (path.join name).text.toList ≠ [] := by
  rw [path.join_eq_lead (isTight_of_isName h).1]
  simp [h.1]

end Path

namespace Disk

variable {disk before after : Disk} {path : Path} {location target : Location}
  {names : List String} {bytes : ByteArray}

/-! ### What paths hold -/

/-- The path leads to a file with the bytes. -/
def HoldsBytes (disk : Disk) (path : Path) (bytes : ByteArray) : Prop :=
  ∃ location, disk.PathLeads path location ∧ disk.node? location = some (.file bytes)

/-- The path leads to a directory. -/
def HoldsDir (disk : Disk) (path : Path) : Prop :=
  ∃ location, disk.PathLeads path location ∧ disk.node? location = some .dir

/-- The path leads to a file with the text. -/
def HoldsText (disk : Disk) (path : Path) (text : String) : Prop :=
  ∃ bytes, disk.HoldsBytes path bytes ∧ String.fromUTF8? bytes = some text

/-- A path holds one text only. -/
theorem HoldsBytes.unique {other : ByteArray} (h : disk.HoldsBytes path bytes)
    (h' : disk.HoldsBytes path other) : bytes = other := by
  obtain ⟨location, hleads, hnode⟩ := h
  obtain ⟨_, hleads', hnode'⟩ := h'
  cases hleads.unique hleads'
  rw [hnode] at hnode'
  cases hnode'
  rfl

/-- What is read is what the path holds. -/
theorem holdsText_of_readText {text : String} (h : disk.readText path = .ok text) :
    disk.HoldsText path text := by
  simp only [readText, readBytes] at h
  cases hstatus : disk.status path with
  | error e =>
    rw [hstatus] at h
    cases h
  | ok found =>
    obtain ⟨location, node⟩ := found
    obtain ⟨hleads, hnode⟩ := pathLeads_of_status hstatus
    rw [hstatus] at h
    cases node with
    | link target => cases h
    | dir => cases h
    | file bytes =>
      refine ⟨bytes, ⟨location, hleads, hnode⟩, ?_⟩
      simp only [bind, Except.bind, pure, Except.pure] at h
      split at h
      · rename_i found hfound
        cases h
        exact hfound
      · cases h

/-- A file that a path leads to stays one while the disk grows. -/
theorem HoldsBytes.grows (h : before.HoldsBytes path bytes) (hgrows : before.Grows after) :
    ∃ bytes', after.HoldsBytes path bytes' := by
  obtain ⟨location, hleads, hnode⟩ := h
  have hbecomes := hgrows.becomes location
  rw [hnode] at hbecomes
  generalize hnow : after.node? location = now at hbecomes
  have hleads' := (hgrows.pathLeads_iff path).mpr hleads
  cases hbecomes with
  | same => exact ⟨bytes, location, hleads', hnow⟩
  | rewritten _ new => exact ⟨new, location, hleads', hnow⟩

/-! ### Where paths below lead -/

/-- **Names.** A path continued by names leads where the names lead from the end of the path. -/
theorem pathLeads_joinAll (h : ∀ name ∈ names, IsName name) :
    disk.PathLeads (path.joinAll names) target ↔
      ∃ location, disk.PathLeads path location ∧ disk.Leads location (names.map .down) target := by
  induction names generalizing path with
  | nil =>
    constructor
    · exact fun hleads => ⟨target, hleads, .here _⟩
    · rintro ⟨location, hleads, hhere⟩
      cases hhere
      exact hleads
  | cons name names ih =>
    rw [Path.joinAll_cons, ih fun other hother => h other (List.mem_cons_of_mem _ hother)]
    simp only [pathLeads_join (h name List.mem_cons_self)]
    constructor
    · rintro ⟨middle, ⟨location, hleads, hname⟩, hnames⟩
      exact ⟨location, hleads, hname.append hnames⟩
    · rintro ⟨location, hleads, hnames⟩
      have hsplit : disk.Leads location ([.down name] ++ names.map .down) target := hnames
      obtain ⟨middle, hname, hnames⟩ := hsplit.split
      exact ⟨middle, ⟨location, hleads, hname⟩, hnames⟩

/-- Names lead straight down to what stands below a place and is no link. -/
theorem leads_of_node? (wf : disk.WellFormed) {node : Node}
    (hnode : disk.node? (names.reverse ++ location) = some node)
    (hother : ∀ path, node ≠ .link path) :
    disk.Leads location (names.map .down) (names.reverse ++ location) := by
  induction names generalizing location with
  | nil => exact .here _
  | cons name names ih =>
    rw [List.reverse_cons, List.append_assoc] at hnode ⊢
    refine .down (fun path hlink => ?_) (ih hnode)
    by_cases hlast : names = []
    · subst hlast
      have hhere : disk.node? (name :: location) = some node := hnode
      exact hother path (Option.some.inj (hhere.symm.trans hlink))
    · have hdir : disk.node? (name :: location) = some .dir := wf.above (by simpa using hlast) hnode
      rw [hdir] at hlink
      cases hlink

/-- Below a place where nothing is there is nothing. -/
theorem Leads.none_of_none (wf : disk.WellFormed) (hnone : disk.node? location = none)
    (h : disk.Leads location (names.map .down) target) : disk.node? target = none := by
  induction names generalizing location with
  | nil =>
    cases h
    exact hnone
  | cons name names ih =>
    have hbelow : disk.node? (name :: location) = none := by
      cases hnode : disk.node? (name :: location) with
      | none => rfl
      | some node =>
        rw [wf.parent hnode] at hnone
        cases hnone
    cases h with
    | down _ h => exact ih hbelow h
    | link hlink _ =>
      rw [hbelow] at hlink
      cases hlink

/-- No link stands below the place. -/
def NoLinksBelow (disk : Disk) (location : Location) : Prop :=
  ∀ name up path, location <:+ up → disk.node? (name :: up) ≠ some (.link path)

/-- Where no link is listed there is none. -/
theorem noLinksBelow_of_nodes (h : ∀ entry ∈ disk.nodes, ∀ path, entry.2 ≠ .link path)
    (location : Location) : disk.NoLinksBelow location :=
  fun _ _ path _ hlink => h _ (mem_nodes_of_node? (List.cons_ne_nil _ _) hlink) path rfl

/-- Growth makes no links. -/
theorem NoLinksBelow.grows (h : before.NoLinksBelow location) (hgrows : before.Grows after) :
    after.NoLinksBelow location :=
  fun name up path hup hlink => h name up path hup ((hgrows.link_iff _ _).mp hlink)

/-- Further down there are no links either. -/
theorem NoLinksBelow.cons (h : disk.NoLinksBelow location) (name : String) :
    disk.NoLinksBelow (name :: location) :=
  fun other up path hup => h other up path ((List.suffix_cons _ _).trans hup)

/-- Names lead straight down if no place on the way is a link. -/
theorem Leads.eq_of_noLinks (hno : disk.NoLinksBelow location)
    (h : disk.Leads location (names.map .down) target) : target = names.reverse ++ location := by
  induction names generalizing location with
  | nil =>
    cases h
    rfl
  | cons name names ih =>
    have hbelow : disk.Leads (name :: location) (names.map .down) target →
        target = names.reverse ++ name :: location := ih (hno.cons name)
    cases h with
    | down _ h =>
      rw [hbelow h]
      simp
    | link hlink _ => exact absurd hlink (hno name location _ List.suffix_rfl)

/-- What holds something below a place stands below an entry of the place. -/
theorem HoldsBytes.exists_entry (wf : disk.WellFormed) {name : String}
    (hnames : ∀ other ∈ name :: names, IsName other) (hpath : disk.PathLeads path location)
    (h : disk.HoldsBytes (path.joinAll (name :: names)) bytes) :
    ∃ node, disk.node? (name :: location) = some node := by
  obtain ⟨target, hleads, htarget⟩ := h
  obtain ⟨other, hother, hdown⟩ := (pathLeads_joinAll hnames).mp hleads
  cases hother.unique hpath
  cases hdown with
  | link hlink _ => exact ⟨_, hlink⟩
  | down _ hdown =>
    cases hnode : disk.node? (name :: location) with
    | some node => exact ⟨node, rfl⟩
    | none =>
      rw [Leads.none_of_none wf hnode hdown] at htarget
      cases htarget

end Disk

end PageLoom
