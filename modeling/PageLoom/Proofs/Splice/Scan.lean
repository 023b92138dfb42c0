import PageLoom.Proofs.Search
import PageLoom.Proofs.Splice.Matches
import PageLoom.Splice.ClassToken
import PageLoom.Splice.Literal

namespace PageLoom

/-!
# Needles of one word

Some needles match one word, at the first place at which it is there for them. Splicing with such a
needle reads the text once, character by character: where the word is there it gives way to the
value, and every other character is copied.

* `Needle.Scans` — needles of one word;
* `Needle.Scans.findAt_eq_some_iff`, `Needle.Scans.findAt_eq_none_iff` — they find the least place at
  which the word is there;
* `Needle.Scans.splice_nil`, `Needle.Scans.splice_here`, `Needle.Scans.splice_skip` — the three
  equations of splicing with them;
* `scans_literal`, `scans_classToken` — literal words and class tokens are such needles.
-/

/-- The needle matches a word with characters, at the first place of a text from which `here` holds
    of what follows. What was passed before does not matter. -/
structure Needle.Scans (needle : Needle) (word : List Char) (here : List Char → Bool) : Prop where
  ne_nil : word ≠ []
  find_nil : ∀ before, needle.find before [] = none
  find_here : ∀ before {text}, here text = true → needle.find before text = some ⟨0, word.length⟩
  find_skip : ∀ before {c rest}, here (c :: rest) = false →
    needle.find before (c :: rest) = (needle.find (c :: before) rest).map (·.shift 1)

namespace Needle.Scans

variable {needle : Needle} {word value text rest : List Char} {here : List Char → Bool}

/-- The word is there only where it can be: the text is at least as long. -/
theorem length_le (h : needle.Scans word here) (hhere : here text = true) :
    word.length ≤ text.length :=
  (needle.inside (h.find_here [] hhere)).2

/-- Every match is as long as the word. -/
theorem stop_eq (h : needle.Scans word here) {before : List Char} {span : Span}
    (hfind : needle.find before text = some span) : span.stop = span.start + word.length := by
  induction text generalizing before span with
  | nil => simp [h.find_nil] at hfind
  | cons c rest ih =>
    by_cases hhere : here (c :: rest) = true
    · cases (h.find_here before hhere).symm.trans hfind
      exact (Nat.zero_add _).symm
    · rw [h.find_skip before (Bool.not_eq_true _ ▸ hhere), Option.map_eq_some_iff] at hfind
      obtain ⟨later, hlater, rfl⟩ := hfind
      simp only [Span.shift, ih hlater]
      omega

/-- At the end of a text the word is not there. -/
theorem here_nil (h : needle.Scans word here) : here [] = false := by
  rw [← Bool.not_eq_true]
  intro hhere
  have hfind := h.find_here [] hhere
  rw [h.find_nil] at hfind
  cases hfind

/-- Nothing is found if the word is nowhere there. -/
theorem find_eq_none_iff (h : needle.Scans word here) {before : List Char} :
    needle.find before text = none ↔ ∀ p, here (text.drop p) = false := by
  induction text generalizing before with
  | nil => simp [h.find_nil, h.here_nil]
  | cons c rest ih =>
    by_cases hhere : here (c :: rest) = true
    · rw [h.find_here before hhere]
      exact iff_of_false (by simp) fun hall => by simpa [hhere] using hall 0
    · have hskip : here (c :: rest) = false := Bool.not_eq_true _ ▸ hhere
      rw [h.find_skip before hskip, Option.map_eq_none_iff, ih]
      constructor
      · intro hall p
        cases p with
        | zero => exact hskip
        | succ p => exact hall p
      · exact fun hall p => hall (p + 1)

/-- What is found is at the least place at which the word is there. -/
theorem isLeast_of_find (h : needle.Scans word here) {before : List Char} {span : Span}
    (hfind : needle.find before text = some span) :
    IsLeast {p | here (text.drop p) = true} span.start := by
  induction text generalizing before span with
  | nil => simp [h.find_nil] at hfind
  | cons c rest ih =>
    by_cases hhere : here (c :: rest) = true
    · cases (h.find_here before hhere).symm.trans hfind
      exact ⟨hhere, fun p _ => Nat.zero_le p⟩
    · rw [h.find_skip before (Bool.not_eq_true _ ▸ hhere), Option.map_eq_some_iff] at hfind
      obtain ⟨later, hlater, rfl⟩ := hfind
      obtain ⟨hmem, hleast⟩ := ih hlater
      refine ⟨hmem, fun p hp => ?_⟩
      cases p with
      | zero => exact absurd hp hhere
      | succ p => exact Nat.succ_le_succ (hleast hp)

/-- From a place on nothing is found if the word is not there at this place or behind it. -/
theorem findAt_eq_none_iff (h : needle.Scans word here) {start : Nat} :
    needle.findAt text start = none ↔ ∀ p, start ≤ p → here (text.drop p) = false := by
  rw [Needle.findAt, Option.map_eq_none_iff, h.find_eq_none_iff]
  constructor
  · intro hall p hp
    have hdrop := hall (p - start)
    rwa [List.drop_drop, Nat.add_sub_cancel' hp] at hdrop
  · intro hall p
    rw [List.drop_drop]
    exact hall _ (Nat.le_add_right ..)

/-- **Least place.** From a place on the needle finds the least place at which the word is there. -/
theorem findAt_eq_some_iff (h : needle.Scans word here) {start : Nat} {span : Span} :
    needle.findAt text start = some span ↔
      IsLeast {p | start ≤ p ∧ here (text.drop p) = true} span.start ∧
        span.stop = span.start + word.length := by
  have hfound : ∀ {found}, needle.findAt text start = some found →
      IsLeast {p | start ≤ p ∧ here (text.drop p) = true} found.start ∧
        found.stop = found.start + word.length := by
    intro found hfindAt
    obtain ⟨later, hlater, rfl⟩ := Option.map_eq_some_iff.mp hfindAt
    obtain ⟨hmem, hleast⟩ := h.isLeast_of_find hlater
    have hthere : here (text.drop (later.start + start)) = true := by
      rw [Nat.add_comm, ← List.drop_drop]
      exact hmem
    refine ⟨⟨⟨Nat.le_add_left .., hthere⟩, fun p hp => ?_⟩, ?_⟩
    · have hp' : here ((text.drop start).drop (p - start)) = true := by
        rw [List.drop_drop, Nat.add_sub_cancel' hp.1]
        exact hp.2
      have hle := hleast hp'
      simp only [Span.shift]
      have := hp.1
      omega
    · simp only [Span.shift, h.stop_eq hlater]
      omega
  refine ⟨hfound, ?_⟩
  rintro ⟨hleast, hstop⟩
  -- As the word is there at some place, a span is found, and there is only one least place.
  cases hfindAt : needle.findAt text start with
  | none =>
    have hnone := h.findAt_eq_none_iff.mp hfindAt _ hleast.1.1
    rw [hleast.1.2] at hnone
    cases hnone
  | some other =>
    obtain ⟨hother, hend⟩ := hfound hfindAt
    have hstart := hother.unique hleast
    rw [hstart, ← hstop] at hend
    cases other
    cases span
    exact congrArg some (congrArg₂ Span.mk hstart hend)

/-- Where two searches start does not matter if the word is there at the same places for both. -/
theorem findAt_congr (h : needle.Scans word here) {start start' : Nat}
    (hsame : ∀ p, here (text.drop p) = true → (start ≤ p ↔ start' ≤ p)) :
    needle.findAt text start = needle.findAt text start' := by
  have hplaces : {p | start ≤ p ∧ here (text.drop p) = true} =
      {p | start' ≤ p ∧ here (text.drop p) = true} := by
    ext p
    exact and_congr_left (hsame p)
  refine Option.ext fun span => ?_
  rw [h.findAt_eq_some_iff, h.findAt_eq_some_iff, hplaces]

/-- The empty text is one gap. -/
theorem pieces_nil (h : needle.Scans word here) (before : List Char) :
    needle.pieces before [] = ⟨[], []⟩ :=
  pieces_of_none (h.find_nil before)

/-- Where the word is there the text is cut. -/
theorem pieces_here (h : needle.Scans word here) (hhere : here text = true) (before : List Char) :
    needle.pieces before text =
      Pieces.cons [] (text.take word.length)
        (needle.pieces ((text.take word.length).reverse ++ before) (text.drop word.length)) :=
  pieces_of_full (h.find_here before hhere) (List.length_pos_iff.mpr h.ne_nil)

/-- Where the word is not there the cut is one of what follows, with one more character in its
    first gap. -/
theorem pieces_skip (h : needle.Scans word here) {c : Char} (hhere : here (c :: rest) = false)
    (before : List Char) :
    needle.pieces before (c :: rest) = Pieces.push c (needle.pieces (c :: before) rest) := by
  have hfind := h.find_skip before hhere
  cases hlater : needle.find (c :: before) rest with
  | none =>
    rw [hlater] at hfind
    rw [pieces_of_none hfind, pieces_of_none hlater]
    rfl
  | some span =>
    have hstop := h.stop_eq hlater
    have hlt : span.start < span.stop := by
      have := List.length_pos_iff.mpr h.ne_nil
      omega
    rw [hlater] at hfind
    rw [pieces_of_full hfind (Nat.add_lt_add_right hlt 1), pieces_of_full hlater hlt]
    simp [Span.shift, Pieces.cons, Pieces.push]

/-- What was passed before does not matter for the cut. -/
theorem pieces_eq (h : needle.Scans word here) (before before' text : List Char) :
    needle.pieces before text = needle.pieces before' text := by
  induction hlength : text.length using Nat.strongRecOn generalizing before before' text with
  | _ length ih =>
    by_cases hhere : here text = true
    · have hle := h.length_le hhere
      have hpos := List.length_pos_iff.mpr h.ne_nil
      rw [h.pieces_here hhere, h.pieces_here hhere]
      exact congrArg _ (ih _ (by rw [List.length_drop]; omega) _ _ _ rfl)
    · cases text with
      | nil => rw [h.pieces_nil, h.pieces_nil]
      | cons c rest =>
        have hskip : here (c :: rest) = false := Bool.not_eq_true _ ▸ hhere
        rw [h.pieces_skip hskip, h.pieces_skip hskip]
        exact congrArg _ (ih _ (by rw [← hlength]; exact Nat.lt_succ_self _) _ _ _ rfl)

/-- In the empty text nothing is replaced. -/
theorem splice_nil (h : needle.Scans word here) : splice needle value [] = [] := by
  rw [splice, h.pieces_nil]
  rfl

/-- Where the word is there it gives way to the value. -/
theorem splice_here (h : needle.Scans word here) (hhere : here text = true) :
    splice needle value text = value ++ splice needle value (text.drop word.length) := by
  rw [splice, h.pieces_here hhere, h.pieces_eq _ []]
  simp [Pieces.cons, Pieces.fill, splice]

/-- Where the word is not there the character is copied. -/
theorem splice_skip (h : needle.Scans word here) {c : Char} (hhere : here (c :: rest) = false) :
    splice needle value (c :: rest) = c :: splice needle value rest := by
  rw [splice, h.pieces_skip hhere, h.pieces_eq _ [], splice]
  cases hpieces : needle.pieces [] rest with
  | mk hits tail => cases hits <;> simp [Pieces.push, Pieces.fill]

end Needle.Scans

/-! ### Literal words -/

/-- A word with characters begins what follows a place just if it is written at the place. -/
theorem isPrefixOf_drop_iff {word text : List Char} {p : Nat} (hne : word ≠ []) :
    word.isPrefixOf (text.drop p) = true ↔ OccursAt word text p := by
  rw [List.isPrefixOf_iff_prefix]
  refine ⟨fun hp => ⟨?_, hp⟩, And.right⟩
  by_contra hlt
  rw [List.drop_eq_nil_of_le (Nat.le_of_not_le hlt), List.prefix_nil] at hp
  exact hne hp

/-- A word with characters is a needle of one word: it is there where it is written. -/
theorem scans_literal {word : List Char} (hne : word ≠ []) :
    (Needle.literal word).Scans word (word.isPrefixOf ·) where
  ne_nil := hne
  find_nil _ := by simp [Needle.literal, indexOf?_nil, hne]
  find_here _ text hhere := by
    have hzero : indexOf? word text = some 0 :=
      indexOf?_eq_some_iff.mpr
        ⟨(occursAt_zero ..).mpr (List.isPrefixOf_iff_prefix.mp hhere), fun p _ => Nat.zero_le p⟩
    simp [Needle.literal, hzero, hne]
  find_skip _ c rest hhere := by
    have hnot : ¬ word <+: c :: rest := by
      rw [← List.isPrefixOf_iff_prefix, hhere]
      exact Bool.false_ne_true
    simp only [Needle.literal, indexOf?_cons, if_neg hnot]
    simp [hne, Span.shift, Function.comp_def, Nat.add_right_comm]

/-! ### Class tokens -/

/-- Counting from `n + 1` instead of `n` adds one to the place that is found. -/
theorem tokenIndexFrom_succ (token text : List Char) (n : Nat) :
    tokenIndexFrom token (n + 1) text = (tokenIndexFrom token n text).map (· + 1) := by
  induction text generalizing n with
  | nil => rfl
  | cons c rest ih =>
    rw [tokenIndexFrom, tokenIndexFrom]
    split
    · rfl
    · exact ih (n + 1)

/-- A token with characters is written only in a text with characters. -/
theorem tokenHere_nil {token : List Char} (hne : token ≠ []) : tokenHere token [] = false := by
  cases token with
  | nil => contradiction
  | cons c token => rfl

/-- A token with characters is a needle of one word: it is there where it is written and ends. -/
theorem scans_classToken {token : List Char} (hne : token ≠ []) :
    (Needle.classToken token).Scans token (tokenHere token) where
  ne_nil := hne
  find_nil _ := by simp [Needle.classToken, tokenIndexFrom]
  find_here _ text hhere := by
    cases text with
    | nil => simp [tokenHere_nil hne] at hhere
    | cons c rest => simp [Needle.classToken, tokenIndexFrom, hhere, hne]
  find_skip _ c rest hhere := by
    simp only [Needle.classToken, tokenIndexFrom, hhere, tokenIndexFrom_succ token rest 0]
    simp [hne, Span.shift, Function.comp_def, Nat.add_right_comm]

end PageLoom
