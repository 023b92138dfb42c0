import Mathlib.Data.List.Basic
import Mathlib.Data.List.TakeWhile
import PageLoom.Disk.Path

namespace PageLoom

/-!
# How paths are spelled

What a path names is read off its segments. Here it is shown what that reading gives for paths
that were put together or taken apart:

* `IsName` — the names that one segment can spell;
* `walkOf`, `Path.steps_eq` — the way of a path, segment by segment, and what a slash at its end
  adds to it;
* `Path.front`, `Path.steps_join` — joining a name adds one segment and one step down;
* `Path.Trims` — a path goes the way of another one, less what says nothing at its end;
* `Path.trims_withoutSlashes`, `Path.exists_parent?_join` — so do a path without the slashes at
  its end, and the parent of a joined path.
-/

/-- A name that one segment of a path can spell. -/
def IsName (name : String) : Prop :=
  name.toList ≠ [] ∧ '/' ∉ name.toList ∧ name.toList ≠ ['.'] ∧ name.toList ≠ ['.', '.']

instance (name : String) : Decidable (IsName name) :=
  inferInstanceAs (Decidable (_ ∧ _ ∧ _ ∧ _))

/-! ### Segments -/

/-- A text has a segment. -/
theorem segments_ne_nil (text : List Char) : segments text ≠ [] := by
  cases text with
  | nil => simp [segments]
  | cons c rest =>
    rw [segments]
    split
    · simp
    · split <;> simp

/-- A text without a slash is one segment. -/
theorem segments_of_not_mem {text : List Char} (h : '/' ∉ text) : segments text = [text] := by
  induction text with
  | nil => rfl
  | cons c rest ih =>
    rw [List.mem_cons, not_or] at h
    rw [segments, if_neg (Ne.symm h.1), ih h.2]

/-- A slash ends a segment. -/
theorem segments_append_slash (first second : List Char) :
    segments (first ++ '/' :: second) = segments first ++ segments second := by
  induction first with
  | nil => simp [segments]
  | cons c rest ih =>
    rw [List.cons_append, segments, segments, ih]
    split
    · rfl
    · obtain ⟨part, more, hparts⟩ := List.exists_cons_of_ne_nil (segments_ne_nil rest)
      rw [hparts]
      rfl

/-- No segment holds a slash. -/
theorem slash_not_mem_of_mem_segments {text part : List Char} (h : part ∈ segments text) :
    '/' ∉ part := by
  induction text generalizing part with
  | nil =>
    simp only [segments, List.mem_singleton] at h
    simp [h]
  | cons c rest ih =>
    rw [segments] at h
    split at h
    · rcases List.mem_cons.mp h with rfl | h
      · simp
      · exact ih h
    · rename_i hc
      obtain ⟨first, more, hparts⟩ := List.exists_cons_of_ne_nil (segments_ne_nil rest)
      rw [hparts] at h ih
      rcases List.mem_cons.mp h with rfl | h
      · have hfirst := ih List.mem_cons_self
        simp [hfirst, Ne.symm hc]
      · exact ih (List.mem_cons_of_mem _ h)

/-- The segments put together with slashes are the text. -/
theorem intercalate_segments (text : List Char) : ['/'].intercalate (segments text) = text := by
  induction text with
  | nil => rfl
  | cons c rest ih =>
    rw [segments]
    obtain ⟨first, more, hparts⟩ := List.exists_cons_of_ne_nil (segments_ne_nil rest)
    rw [hparts] at ih ⊢
    split
    · rename_i hc
      subst hc
      simpa [List.intercalate, List.intersperse] using ih
    · cases more with
      | nil => simpa [List.intercalate] using ih
      | cons second more => simpa [List.intercalate] using ih

/-- Two lists of pieces are put together with one more slash. -/
theorem intercalate_append {first second : List (List Char)} (hf : first ≠ []) (hs : second ≠ []) :
    ['/'].intercalate (first ++ second) =
      ['/'].intercalate first ++ '/' :: ['/'].intercalate second := by
  obtain ⟨piece, others, rfl⟩ := List.exists_cons_of_ne_nil hs
  induction first with
  | nil => exact absurd rfl hf
  | cons part more ih =>
    cases more with
    | nil => simp [List.intercalate]
    | cons next more =>
      have hnext := ih (List.cons_ne_nil next more)
      simp only [List.intercalate, List.cons_append, List.intersperse_cons_cons, List.flatten_cons,
        List.append_assoc] at hnext ⊢
      rw [hnext]

/-- The first segment is empty if the text is, or begins with a slash. -/
theorem head?_segments (text : List Char) :
    (segments text).head? = some [] ↔ text = [] ∨ text.head? = some '/' := by
  cases text with
  | nil => simp [segments]
  | cons c rest =>
    obtain ⟨first, more, hparts⟩ := List.exists_cons_of_ne_nil (segments_ne_nil rest)
    rw [segments, hparts]
    by_cases hc : c = '/' <;> simp [hc]

/-- The last segment of a text that does not end in a slash is not empty. -/
theorem getLast?_segments {text : List Char} (hne : text ≠ [])
    (hend : ¬ text.getLast? = some '/') : ¬ (segments text).getLast? = some [] := by
  intro hlast
  obtain ⟨init, hinit⟩ := List.getLast?_eq_some_iff.mp hlast
  have htext := intercalate_segments text
  rw [hinit] at htext
  by_cases h : init = []
  · subst h
    exact hne htext.symm
  · rw [intercalate_append h (List.cons_ne_nil _ _)] at htext
    refine hend ?_
    rw [← htext]
    simp [List.intercalate]

/-- Pieces without slashes, put together with slashes, are the segments. -/
theorem segments_intercalate {parts : List (List Char)} (hne : parts ≠ [])
    (h : ∀ part ∈ parts, '/' ∉ part) : segments (['/'].intercalate parts) = parts := by
  induction parts with
  | nil => exact absurd rfl hne
  | cons first more ih =>
    have hfirst := segments_of_not_mem (h first List.mem_cons_self)
    cases more with
    | nil => simpa [List.intercalate] using hfirst
    | cons second more =>
      have hsplit : ['/'].intercalate (first :: second :: more) =
          first ++ '/' :: ['/'].intercalate (second :: more) := by
        simp [List.intercalate]
      rw [hsplit, segments_append_slash, hfirst, ih (List.cons_ne_nil _ _)
        (fun part hpart => h part (List.mem_cons_of_mem _ hpart))]
      rfl

/-! ### Steps -/

/-- The steps that one segment inside a path takes. -/
def stepOf (part : List Char) : List Step :=
  if part = [] then []
  else if part = ['.'] then [.stay]
  else if part = ['.', '.'] then [.up]
  else [.down (String.ofList part)]

/-- The steps that segments inside a path take. -/
def walkOf (parts : List (List Char)) : List Step :=
  parts.flatMap stepOf

@[simp] theorem walkOf_append (first second : List (List Char)) :
    walkOf (first ++ second) = walkOf first ++ walkOf second :=
  List.flatMap_append

@[simp] theorem walkOf_cons (part : List Char) (more : List (List Char)) :
    walkOf (part :: more) = stepOf part ++ walkOf more :=
  List.flatMap_cons

/-- A name takes one step down. -/
theorem stepOf_name {name : String} (h : IsName name) : stepOf name.toList = [.down name] := by
  obtain ⟨hne, -, hdot, hdots⟩ := h
  rw [stepOf, if_neg hne, if_neg hdot, if_neg hdots, String.ofList_toList]

/-- A segment takes its own step, unless it is the empty one at the end. -/
theorem Path.stepsOf_cons {part : List Char} {more : List (List Char)}
    (h : part = [] → more ≠ []) : stepsOf (part :: more) = stepOf part ++ stepsOf more := by
  rw [stepsOf, stepOf]
  · split
    · rfl
    · split
      · rfl
      · split <;> rfl
  · exact h

/-- Segments take their steps, and one more to stay if the last of them is empty. -/
theorem Path.stepsOf_eq (parts : List (List Char)) :
    stepsOf parts = walkOf parts ++ if parts.getLast? = some [] then [.stay] else [] := by
  induction parts with
  | nil => rfl
  | cons part more ih =>
    by_cases h : part = [] ∧ more = []
    · obtain ⟨rfl, rfl⟩ := h
      rfl
    · rw [stepsOf_cons (fun hpart hmore => h ⟨hpart, hmore⟩), ih, walkOf_cons, List.append_assoc]
      congr 2
      cases more with
      | nil => simpa [stepsOf] using h
      | cons next more => rfl

namespace Path

theorem steps_eq (path : Path) :
    path.steps = walkOf (segments path.text.toList) ++
      if (segments path.text.toList).getLast? = some [] then [.stay] else [] :=
  stepsOf_eq _

/-- The steps down that a path takes spell names. -/
theorem isName_of_down_mem_steps {path : Path} {name : String} (h : .down name ∈ path.steps) :
    IsName name := by
  rw [steps_eq, List.mem_append] at h
  rcases h with h | h
  · obtain ⟨part, hpart, hstep⟩ := List.mem_flatMap.mp h
    rw [stepOf] at hstep
    split at hstep
    · simp at hstep
    · split at hstep
      · simp at hstep
      · split at hstep
        · simp at hstep
        · rename_i hne hdot hdots
          obtain rfl : name = String.ofList part := by simpa using hstep
          exact ⟨by simpa using hne, by simpa using slash_not_mem_of_mem_segments hpart,
            by simpa using hdot, by simpa using hdots⟩
  · split at h <;> simp at h

/-! ### Joining -/

/-- The segments of a path before a name that it is joined with. -/
def front (path : Path) : List (List Char) :=
  if path.text.toList = [] then []
  else if path.text.toList.getLast? = some '/' then segments path.text.toList.dropLast
  else segments path.text.toList

/-- The characters of a path with a name joined to it. -/
theorem toList_join (path : Path) {name : String} (h : IsName name) :
    (path.join name).text.toList =
      if path.text.toList = [] then name.toList
      else if path.text.toList.getLast? = some '/' then path.text.toList ++ name.toList
      else path.text.toList ++ '/' :: name.toList := by
  have hslash : ¬ name.toList.head? = some '/' := fun hhead =>
    h.2.1 (List.mem_of_mem_head? hhead)
  rw [join, if_neg hslash]
  by_cases hempty : path.text = ""
  · simp [hempty]
  · have hlist : path.text.toList ≠ [] := by simpa using hempty
    by_cases hend : path.text.toList.getLast? = some '/' <;> simp [hempty, hend]

/-- A name adds one segment. -/
theorem segments_join (path : Path) {name : String} (h : IsName name) :
    segments (path.join name).text.toList = path.front ++ [name.toList] := by
  rw [toList_join path h, front]
  split
  · exact segments_of_not_mem h.2.1
  · split
    · rename_i hne hend
      have hsplit : path.text.toList ++ name.toList =
          path.text.toList.dropLast ++ '/' :: name.toList := by
        obtain ⟨init, hinit⟩ := List.getLast?_eq_some_iff.mp hend
        simp [hinit]
      rw [hsplit, segments_append_slash, segments_of_not_mem h.2.1]
    · rw [segments_append_slash, segments_of_not_mem h.2.1]

/-- A name adds one step down. -/
theorem steps_join (path : Path) {name : String} (h : IsName name) :
    (path.join name).steps = walkOf path.front ++ [.down name] := by
  have hlast : ¬ (path.front ++ [name.toList]).getLast? = some [] := by simpa using h.1
  rw [steps_eq, segments_join path h, if_neg hlast, walkOf_append, walkOf_cons, stepOf_name h]
  simp [walkOf]

/-- A path takes the steps of what comes before a joined name, and may stay at the end. -/
theorem exists_steps_eq_front (path : Path) :
    ∃ stays, path.steps = walkOf path.front ++ List.replicate stays .stay := by
  rw [steps_eq, front]
  by_cases hempty : path.text.toList = []
  · rw [if_pos hempty, hempty]
    exact ⟨1, rfl⟩
  rw [if_neg hempty]
  by_cases hend : path.text.toList.getLast? = some '/'
  · obtain ⟨init, hinit⟩ := List.getLast?_eq_some_iff.mp hend
    have hsegments : segments path.text.toList = segments init ++ [[]] := by
      rw [hinit, show init ++ ['/'] = init ++ '/' :: [] from rfl, segments_append_slash]
      rfl
    refine ⟨1, ?_⟩
    rw [if_pos hend, hsegments, hinit, List.dropLast_concat]
    simp [stepOf, walkOf]
  · refine ⟨0, ?_⟩
    rw [if_neg hend, if_neg (getLast?_segments hempty hend), List.replicate_zero]

/-- A joined path starts where the path starts. -/
theorem isAbsolute_join (path : Path) {name : String} (h : IsName name) :
    (path.join name).isAbsolute = path.isAbsolute := by
  have hslash : ¬ name.toList.head? = some '/' := fun hhead =>
    h.2.1 (List.mem_of_mem_head? hhead)
  rw [isAbsolute, isAbsolute, toList_join path h]
  split
  · rename_i hempty
    simp [hempty, hslash]
  · rename_i hne
    obtain ⟨c, rest, hc⟩ := List.exists_cons_of_ne_nil hne
    split <;> simp [hc]

/-! ### Trimming -/

/-- The short path is a beginning of the long one and goes the same way, but for steps that stay
    at the end. -/
structure Trims (long short : Path) : Prop where
  steps : ∃ way more less, long.steps = way ++ List.replicate more .stay ∧
    short.steps = way ++ List.replicate less .stay
  absolute : short.isAbsolute = long.isAbsolute
  start : ∃ rest, long.text.toList = short.text.toList ++ rest
  nonempty : short.text.toList = [] → long.text.toList = []

/-- A path trims to itself. -/
theorem Trims.refl (path : Path) : Trims path path :=
  ⟨⟨path.steps, 0, 0, by simp, by simp⟩, rfl, ⟨[], by simp⟩, id⟩

/-- A text of slashes holds empty segments only. -/
theorem segments_slashes (count : Nat) :
    segments (List.replicate count '/') = List.replicate (count + 1) [] := by
  induction count with
  | zero => rfl
  | succ count ih =>
    rw [List.replicate_succ, segments, if_pos rfl, ih]
    rfl

/-- Empty segments take one step to stay, at the end. -/
theorem stepsOf_empty (count : Nat) : stepsOf (List.replicate (count + 1) []) = [.stay] := by
  rw [stepsOf_eq, List.getLast?_replicate]
  simp [walkOf, stepOf]

/-- Slashes at the end of a text that holds something else only add steps to stay. -/
theorem exists_stepsOf_append_slashes {kept : List Char} (hne : kept ≠ [])
    (hend : ¬ kept.getLast? = some '/') (count : Nat) :
    ∃ stays, stepsOf (segments (kept ++ List.replicate count '/')) =
      walkOf (segments kept) ++ List.replicate stays .stay := by
  cases count with
  | zero =>
    refine ⟨0, ?_⟩
    rw [List.replicate_zero, List.append_nil, stepsOf_eq, if_neg (getLast?_segments hne hend)]
    simp
  | succ count =>
    refine ⟨1, ?_⟩
    rw [List.replicate_succ, segments_append_slash, segments_slashes, stepsOf_eq, walkOf_append]
    simp [walkOf, stepOf, List.replicate_succ']

/-- A text ends in some number of slashes. -/
theorem exists_append_slashes (text : List Char) :
    ∃ count, text = (text.reverse.dropWhile (· = '/')).reverse ++ List.replicate count '/' := by
  refine ⟨(text.reverse.takeWhile (· = '/')).length, ?_⟩
  have hslashes : text.reverse.takeWhile (· = '/') =
      List.replicate (text.reverse.takeWhile (· = '/')).length '/' := by
    refine List.eq_replicate_length.mpr fun c hc => ?_
    simpa using List.mem_takeWhile_imp hc
  calc text = (text.reverse.takeWhile (· = '/') ++ text.reverse.dropWhile (· = '/')).reverse := by
        rw [List.takeWhile_append_dropWhile, List.reverse_reverse]
    _ = _ := by rw [List.reverse_append, hslashes, List.reverse_replicate, List.length_replicate]

/-- **Trailing slashes.** A path goes the way that it goes without the slashes at its end. -/
theorem trims_withoutSlashes (path : Path) : path.Trims path.withoutSlashes := by
  obtain ⟨count, htext⟩ := exists_append_slashes path.text.toList
  rw [withoutSlashes]
  split
  · rename_i hnone
    rw [hnone, List.reverse_nil, List.nil_append] at htext
    -- There are slashes only: the root, or nothing at all.
    split
    · rename_i habs
      cases count with
      | zero => simp [isAbsolute, htext] at habs
      | succ count =>
        refine ⟨⟨[], 1, 1, ?_, rfl⟩, habs.symm, ⟨List.replicate count '/', htext⟩, by simp⟩
        rw [steps, htext, segments_slashes, stepsOf_empty]
        rfl
    · exact .refl path
  · rename_i hkept
    generalize hdrop : path.text.toList.reverse.dropWhile (· = '/') = kept at htext hkept ⊢
    have hne : kept.reverse ≠ [] := by simpa using hkept
    have hend : ¬ kept.reverse.getLast? = some '/' := by
      intro hlast
      have hhead := List.head?_dropWhile_not (fun c => decide (c = '/')) path.text.toList.reverse
      rw [hdrop, ← List.getLast?_reverse, hlast] at hhead
      simp at hhead
    -- Slashes after a name are steps that stay where they are.
    obtain ⟨stays, hstays⟩ := exists_stepsOf_append_slashes hne hend count
    refine ⟨⟨walkOf (segments kept.reverse), stays, 0, ?_, ?_⟩, ?_, ⟨_, by simpa using htext⟩, ?_⟩
    · rw [steps, htext, hstays]
    · rw [steps_eq, String.toList_ofList, if_neg (getLast?_segments hne hend)]
      simp
    · obtain ⟨c, rest, hc⟩ := List.exists_cons_of_ne_nil hne
      simp [isAbsolute, htext, hc]
    · exact fun h => absurd (by simpa using h) hne

/-- Segments are their trimmed beginning and silent segments. -/
theorem exists_eq_trimSegments_append (parts : List (List Char)) :
    ∃ silent : List (List Char), (∀ part ∈ silent, part = [] ∨ part = ['.']) ∧
      parts = trimSegments parts ++ silent := by
  cases parts with
  | nil => exact ⟨[], by simp, rfl⟩
  | cons first more =>
    refine ⟨(more.reverse.takeWhile isSilent).reverse, fun part hpart => ?_, ?_⟩
    · have hsilent := List.mem_takeWhile_imp (List.mem_reverse.mp hpart)
      simpa [isSilent] using hsilent
    · rw [trimSegments, List.cons_append, ← List.reverse_append, List.takeWhile_append_dropWhile,
        List.reverse_reverse]

/-- A name at the end is not trimmed. -/
theorem trimSegments_append_name (parts : List (List Char)) {name : String} (h : IsName name) :
    trimSegments (parts ++ [name.toList]) = parts ++ [name.toList] := by
  have hloud : isSilent name.toList = false := by simp [isSilent, h.1, h.2.2.1]
  cases parts with
  | nil => rfl
  | cons first more =>
    rw [List.cons_append, trimSegments, List.reverse_append, List.reverse_singleton,
      List.singleton_append, List.dropWhile_cons_of_neg (by simp [hloud])]
    simp

/-- Silent segments only stay. -/
theorem exists_walkOf_silent {silent : List (List Char)}
    (h : ∀ part ∈ silent, part = [] ∨ part = ['.']) :
    ∃ stays, walkOf silent = List.replicate stays .stay := by
  induction silent with
  | nil => exact ⟨0, rfl⟩
  | cons part more ih =>
    obtain ⟨stays, hstays⟩ := ih fun other hother => h other (List.mem_cons_of_mem _ hother)
    rcases h part List.mem_cons_self with rfl | rfl
    · exact ⟨stays, by simpa [stepOf] using hstays⟩
    · exact ⟨stays + 1, by simpa [stepOf, List.replicate_succ] using hstays⟩

/-- No segment before a joined name holds a slash. -/
theorem slash_not_mem_of_mem_front {path : Path} {part : List Char} (h : part ∈ path.front) :
    '/' ∉ part := by
  rw [front] at h
  split at h
  · simp at h
  · split at h
    · exact slash_not_mem_of_mem_segments h
    · exact slash_not_mem_of_mem_segments h

/-- The text of a path begins with the segments before a joined name, put together. -/
theorem exists_eq_intercalate_front (path : Path) :
    ∃ rest, path.text.toList = ['/'].intercalate path.front ++ rest := by
  rw [front]
  split
  · rename_i h
    exact ⟨[], by simpa [List.intercalate] using h⟩
  · split
    · rename_i hend
      obtain ⟨init, hinit⟩ := List.getLast?_eq_some_iff.mp hend
      exact ⟨['/'], by rw [intercalate_segments, hinit, List.dropLast_concat]⟩
    · exact ⟨[], by rw [intercalate_segments, List.append_nil]⟩

/-- A path is absolute if an empty segment is the first one before a joined name. -/
theorem isAbsolute_eq_front (path : Path) :
    path.isAbsolute = decide (path.front.head? = some []) := by
  rw [isAbsolute, front, decide_eq_decide]
  split
  · rename_i hempty
    simp [hempty]
  · rename_i hne
    split
    · rename_i hend
      obtain ⟨init, hinit⟩ := List.getLast?_eq_some_iff.mp hend
      rw [hinit, List.dropLast_concat, head?_segments]
      cases init <;> simp
    · rw [head?_segments, or_iff_right hne]

/-- Only the empty path has no segment before a joined name. -/
theorem front_eq_nil_iff (path : Path) : path.front = [] ↔ path.text.toList = [] := by
  rw [front]
  split
  · rename_i hempty
    simp [hempty]
  · rename_i hne
    split <;> simp [hne, segments_ne_nil]

/-- Trimming leaves no segment only if there was none. -/
theorem trimSegments_eq_nil_iff (parts : List (List Char)) : trimSegments parts = [] ↔ parts = [] := by
  cases parts <;> simp [trimSegments]

section Front

variable {path : Path} {parts silent : List (List Char)}
  (hfront : path.front = parts ++ silent) (hsilent : ∀ part ∈ silent, part = [] ∨ part = ['.'])

include hfront hsilent

/-- Silent segments before a joined name only stay. -/
theorem exists_steps_eq_walkOf :
    ∃ stays, path.steps = walkOf parts ++ List.replicate stays .stay := by
  obtain ⟨stays, hstays⟩ := exists_walkOf_silent hsilent
  obtain ⟨more, hsteps⟩ := path.exists_steps_eq_front
  refine ⟨stays + more, ?_⟩
  rw [hsteps, hfront, walkOf_append, hstays, List.append_assoc, List.replicate_append_replicate]

/-- A path goes the way of the segments before a joined name, less silent ones. -/
theorem trims_ofSegments (hne : parts ≠ []) (hroot : parts ≠ [[]]) :
    path.Trims (ofSegments parts) := by
  have hown : segments (ofSegments parts).text.toList = parts := by
    rw [ofSegments, String.toList_ofList]
    refine segments_intercalate hne fun part hpart => ?_
    have hmem : part ∈ path.front := by
      rw [hfront]
      exact List.mem_append_left _ hpart
    exact slash_not_mem_of_mem_front hmem
  have htext : (ofSegments parts).text.toList ≠ [] := by
    intro htext
    rw [htext] at hown
    exact hroot hown.symm
  obtain ⟨stays, hsteps⟩ := exists_steps_eq_walkOf hfront hsilent
  refine ⟨⟨walkOf parts, stays, if parts.getLast? = some [] then 1 else 0, hsteps, ?_⟩, ?_, ?_,
    fun h => absurd h htext⟩
  · rw [steps_eq, hown]
    split <;> rfl
  -- Both texts have the same first segment, so both start at the root or neither does.
  · have hhead := head?_segments (ofSegments parts).text.toList
    rw [hown, or_iff_right htext] at hhead
    rw [path.isAbsolute_eq_front, hfront, List.head?_append_of_ne_nil _ hne, isAbsolute,
      decide_eq_decide]
    exact hhead.symm
  · obtain ⟨rest, hrest⟩ := path.exists_eq_intercalate_front
    rw [hrest, hfront, ofSegments, String.toList_ofList]
    by_cases hnil : silent = []
    · exact ⟨rest, by rw [hnil, List.append_nil]⟩
    · exact ⟨'/' :: ['/'].intercalate silent ++ rest, by
        rw [intercalate_append hne hnil, List.append_assoc]⟩

end Front

/-- **Parents.** The parent of a joined path goes the way of the path that was joined. -/
theorem exists_parent?_join (path : Path) {name : String} (h : IsName name) :
    ∃ parent, (path.join name).parent? = some parent ∧ path.Trims parent := by
  have hparts : trimSegments (segments (path.join name).text.toList) = path.front ++ [name.toList] := by
    rw [segments_join path h, trimSegments_append_name _ h]
  have hroot : path.front ++ [name.toList] ≠ [[]] := by
    intro hroot
    have hlast := congrArg List.getLast? hroot
    simp [h.1] at hlast
  rw [parent?, hparts]
  simp only [hroot, if_false, List.dropLast_concat]
  obtain ⟨silent, hsilent, hfront⟩ := exists_eq_trimSegments_append path.front
  have hnil := trimSegments_eq_nil_iff path.front
  generalize trimSegments path.front = parts at hfront hnil ⊢
  split
  · -- All that is left is the root.
    have habs : path.isAbsolute = true := by simp [isAbsolute_eq_front, hfront]
    obtain ⟨stays, hsteps⟩ := exists_steps_eq_walkOf hfront hsilent
    refine ⟨_, rfl, ⟨[], stays, 1, hsteps, rfl⟩, habs.symm, ?_, by simp⟩
    rw [isAbsolute, decide_eq_true_eq] at habs
    obtain ⟨tail, htail⟩ := List.head?_eq_some_iff.mp habs
    exact ⟨tail, htail⟩
  · rename_i hparent
    -- With no segments left the path is empty, and its own parent then.
    by_cases hempty : parts = []
    · have hpath : path = ofSegments parts := by
        rw [hempty]
        exact congrArg Path.mk
          (String.toList_inj.mp ((front_eq_nil_iff path).mp (hnil.mp hempty)))
      exact ⟨_, rfl, hpath ▸ .refl path⟩
    · exact ⟨_, rfl, trims_ofSegments hfront hsilent hempty hparent⟩

end Path

end PageLoom
