import Mathlib.Order.Bounds.Basic
import PageLoom.Text.Search

namespace PageLoom

/-!
# What a search finds

`indexOf?` is meant to find the first place of a word. Here the place of a word is said without
a scan, and the scan is shown to find the least one:

* `OccursAt` — a word is written at a place of a text;
* `indexOf?_eq_some_iff`, `indexOf?_eq_none_iff` — a search finds the least place of the word,
  and finds nothing if there is none;
* `isLeast_occursAt_drop` — places in the rest of a text are places in the text;
* `indexOf?_append_of_infix`, `indexOf?_append_of_not_mem` — what is found at the front of a text
  that goes on.
-/

/-- The word is written in the text from place `i` on. -/
def OccursAt (word text : List Char) (i : Nat) : Prop :=
  i ≤ text.length ∧ word <+: text.drop i

instance (word text : List Char) (i : Nat) : Decidable (OccursAt word text i) :=
  inferInstanceAs (Decidable (_ ∧ _))

/-- A word that is written at a place ends inside the text. -/
theorem OccursAt.add_length_le {word text : List Char} {i : Nat} (h : OccursAt word text i) :
    i + word.length ≤ text.length := by
  obtain ⟨hi, hp⟩ := h
  have hl := hp.length_le
  rw [List.length_drop] at hl
  omega

/-- At the start of a text a word is written if it is a prefix. -/
@[simp] theorem occursAt_zero (word text : List Char) : OccursAt word text 0 ↔ word <+: text := by
  simp [OccursAt]

/-- Later places of a text are places of what follows its first character. -/
@[simp] theorem occursAt_cons_succ (word rest : List Char) (c : Char) (i : Nat) :
    OccursAt word (c :: rest) (i + 1) ↔ OccursAt word rest i := by
  simp [OccursAt]

/-- Only the empty word is written in the empty text, and only at its start. -/
theorem occursAt_nil (word : List Char) (i : Nat) : OccursAt word [] i ↔ word = [] ∧ i = 0 := by
  constructor
  · rintro ⟨hi, hp⟩
    simp only [List.drop_nil, List.prefix_nil, List.length_nil, Nat.le_zero] at hi hp
    exact ⟨hp, hi⟩
  · rintro ⟨rfl, rfl⟩
    simp

/-- Places in the rest of a text, counted from its start, are the places of the text that are
    not before the rest. -/
theorem occursAt_drop {word text : List Char} {n i : Nat} (hn : n ≤ text.length) :
    OccursAt word (text.drop n) i ↔ OccursAt word text (n + i) := by
  simp only [OccursAt, List.drop_drop, List.length_drop]
  constructor
  · rintro ⟨hi, hp⟩
    exact ⟨by omega, hp⟩
  · rintro ⟨hi, hp⟩
    exact ⟨by omega, hp⟩

/-- Counting from `n` adds `n` to the place that is found. -/
theorem indexFrom_eq_map (word text : List Char) (n : Nat) :
    indexFrom word n text = (indexOf? word text).map (· + n) := by
  have key : ∀ m, indexFrom word (m + n) text = (indexFrom word m text).map (· + n) := by
    induction text with
    | nil =>
      intro m
      simp only [indexFrom]
      split <;> rfl
    | cons c rest ih =>
      intro m
      simp only [indexFrom]
      split
      · rfl
      · rw [← ih (m + 1), Nat.add_right_comm]
  simpa [indexOf?] using key 0

/-- The search in a text with a first character looks there first. -/
theorem indexOf?_cons (word rest : List Char) (c : Char) :
    indexOf? word (c :: rest) =
      if word <+: c :: rest then some 0 else (indexOf? word rest).map (· + 1) := by
  rw [indexOf?, indexFrom, indexFrom_eq_map]
  by_cases h : word <+: c :: rest
  · rw [if_pos h, if_pos (List.isPrefixOf_iff_prefix.mpr h)]
  · rw [if_neg h, if_neg (fun hp => h (List.isPrefixOf_iff_prefix.mp hp))]

/-- A search in the empty text finds the empty word only. -/
theorem indexOf?_nil (word : List Char) : indexOf? word [] = if word = [] then some 0 else none := by
  cases word <;> rfl

/-- A search finds nothing if the word is written nowhere. -/
theorem indexOf?_eq_none_iff {word text : List Char} :
    indexOf? word text = none ↔ ∀ i, ¬ OccursAt word text i := by
  induction text with
  | nil =>
    rw [indexOf?_nil]
    simp only [occursAt_nil]
    by_cases h : word = [] <;> simp [h]
  | cons c rest ih =>
    rw [indexOf?_cons]
    by_cases h : word <+: c :: rest
    · rw [if_pos h]
      exact iff_of_false (by simp) (fun hn => hn 0 (by simpa using h))
    · rw [if_neg h, Option.map_eq_none_iff, ih]
      constructor
      · intro hn i
        cases i with
        | zero => simpa using h
        | succ i => simpa using hn i
      · intro hn i
        simpa using hn (i + 1)

/-- **First place.** A search finds the least place at which the word is written. -/
theorem indexOf?_eq_some_iff {word text : List Char} {i : Nat} :
    indexOf? word text = some i ↔ IsLeast {p | OccursAt word text p} i := by
  induction text generalizing i with
  | nil =>
    rw [indexOf?_nil]
    simp only [occursAt_nil]
    by_cases h : word = []
    · simp only [h, if_true, true_and, Option.some.injEq]
      exact ⟨fun hi => hi ▸ ⟨rfl, fun p _ => Nat.zero_le p⟩, fun hi => hi.1.symm⟩
    · simp [h, IsLeast]
  | cons c rest ih =>
    rw [indexOf?_cons]
    -- Either the word is here, and no place is less, or every place is one in the rest.
    by_cases h : word <+: c :: rest
    · have h0 : OccursAt word (c :: rest) 0 := (occursAt_zero ..).mpr h
      rw [if_pos h, Option.some.injEq]
      exact ⟨fun hi => hi ▸ ⟨h0, fun p _ => Nat.zero_le p⟩, fun hi => (Nat.le_zero.mp (hi.2 h0)).symm⟩
    · rw [if_neg h, Option.map_eq_some_iff]
      constructor
      · rintro ⟨j, hj, rfl⟩
        obtain ⟨hmem, hleast⟩ := ih.mp hj
        refine ⟨(occursAt_cons_succ ..).mpr hmem, fun p hp => ?_⟩
        cases p with
        | zero => exact absurd ((occursAt_zero ..).mp hp) h
        | succ p => exact Nat.succ_le_succ (hleast ((occursAt_cons_succ ..).mp hp))
      · rintro ⟨hmem, hleast⟩
        cases i with
        | zero => exact absurd ((occursAt_zero ..).mp hmem) h
        | succ j =>
          refine ⟨j, ih.mpr ⟨(occursAt_cons_succ ..).mp hmem, fun p hp => ?_⟩, rfl⟩
          exact Nat.le_of_succ_le_succ (hleast ((occursAt_cons_succ word rest c p).mpr hp))

/-- The least place in the rest of a text is the least place of the text that is not before the
    rest. -/
theorem isLeast_occursAt_drop {word text : List Char} {n i : Nat} (hn : n ≤ text.length) :
    IsLeast {p | OccursAt word (text.drop n) p} i ↔
      IsLeast {p | n ≤ p ∧ OccursAt word text p} (n + i) := by
  constructor
  · rintro ⟨hmem, hleast⟩
    refine ⟨⟨Nat.le_add_right .., (occursAt_drop hn).mp hmem⟩, ?_⟩
    rintro p ⟨hp, hocc⟩
    have hp' : OccursAt word (text.drop n) (p - n) :=
      (occursAt_drop hn).mpr (by rwa [Nat.add_sub_cancel' hp])
    have := hleast hp'
    omega
  · rintro ⟨⟨-, hmem⟩, hleast⟩
    refine ⟨(occursAt_drop hn).mpr hmem, fun p hp => ?_⟩
    have := hleast ⟨Nat.le_add_right n p, (occursAt_drop hn).mp hp⟩
    omega

/-- A search in the rest of a text finds the least place of the text that is not before the
    rest. -/
theorem indexOf?_drop_eq_some_iff {word text : List Char} {n i : Nat} (hn : n ≤ text.length) :
    indexOf? word (text.drop n) = some i ↔
      IsLeast {p | n ≤ p ∧ OccursAt word text p} (n + i) :=
  indexOf?_eq_some_iff.trans (isLeast_occursAt_drop hn)

/-! ### Parts of texts -/

/-- A search finds nothing if the word is no part of the text. -/
theorem indexOf?_eq_none_iff_not_infix {word text : List Char} :
    indexOf? word text = none ↔ ¬ word <:+: text := by
  induction text with
  | nil => simp [indexOf?_nil]
  | cons c rest ih =>
    rw [indexOf?_cons, List.infix_cons_iff]
    by_cases h : word <+: c :: rest
    · simp [h]
    · simp [h, ih]

/-- A word that is part of a text is found inside it, whatever follows. -/
theorem indexOf?_append_of_infix {word text : List Char} (h : word <:+: text) (more : List Char) :
    ∃ i, indexOf? word (text ++ more) = some i ∧ i + word.length ≤ text.length := by
  induction text with
  | nil =>
    obtain rfl := List.infix_nil.mp h
    refine ⟨0, ?_, Nat.le_refl 0⟩
    cases more with
    | nil => rfl
    | cons d more => rw [List.nil_append, indexOf?_cons, if_pos List.nil_prefix]
  | cons c rest ih =>
    rw [List.cons_append, indexOf?_cons]
    by_cases hhere : word <+: c :: (rest ++ more)
    · exact ⟨0, if_pos hhere, by rw [Nat.zero_add]; exact h.length_le⟩
    · have hrest : word <:+: rest := by
        refine (List.infix_cons_iff.mp h).resolve_left fun hstart => hhere ?_
        exact hstart.trans (List.prefix_append (c :: rest) more)
      obtain ⟨i, hi, hle⟩ := ih hrest
      refine ⟨i + 1, by rw [if_neg hhere, hi]; rfl, ?_⟩
      rw [List.length_cons]
      omega

/-- The first place of a word is behind a text that does not have the word's first character. -/
theorem indexOf?_append_of_not_mem {c : Char} {word before : List Char} (h : c ∉ before)
    (rest : List Char) :
    indexOf? (c :: word) (before ++ (c :: word ++ rest)) = some before.length := by
  induction before with
  | nil => rw [List.nil_append, List.cons_append, indexOf?_cons, if_pos (by simp)]; rfl
  | cons d before ih =>
    obtain ⟨hd, hbefore⟩ := not_or.mp fun hor => h (List.mem_cons.mpr hor)
    have hhere : ¬ c :: word <+: d :: (before ++ (c :: word ++ rest)) :=
      fun hstart => hd (List.cons_prefix_cons.mp hstart).1
    rw [List.cons_append, indexOf?_cons, if_neg hhere, ih hbefore]
    rfl

end PageLoom
