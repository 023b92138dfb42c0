import Mathlib.Order.Bounds.Basic
import PageLoom.Proofs.Splice.Scan

namespace PageLoom

/-!
# Places of a word

A needle of one word matches at places that are chosen from left to right without overlap: each one is
the least place, not before the end of the one chosen before it, at which the word is there. The text
can be cut around the word at these places, or behind it.

* `Chosen` — places chosen from left to right without overlap;
* `Needle.Scans.chosen_of_matches` — the matches of a needle of one word are chosen so;
* `wordSpan`, `spanBehind` — the spans of a word at a place and of no character behind it;
* `Pieces.fill_cut_word`, `Pieces.fill_nil_cut` — a mark behind each place is put in, and taken away.
-/

/-! ### Choosing places -/

/-- Places from `start` on that are chosen from left to right, each of them with `size` characters:
    the first one is the least valid place, and the choice goes on where it ends. -/
inductive Chosen (valid : Nat → Prop) (size : Nat) : (start : Nat) → List Nat → Prop
  | none {start : Nat} : (∀ p, start ≤ p → ¬ valid p) → Chosen valid size start []
  | next {start place : Nat} {more : List Nat} :
      IsLeast {p | start ≤ p ∧ valid p} place → Chosen valid size (place + size) more →
      Chosen valid size start (place :: more)

namespace Chosen

variable {valid : Nat → Prop} {size start : Nat} {places : List Nat}

/-- From one place on there is only one choice. -/
theorem unique {others : List Nat} (h : Chosen valid size start places)
    (h' : Chosen valid size start others) : places = others := by
  induction h generalizing others with
  | none hnone =>
    cases h' with
    | none => rfl
    | next hleast => exact absurd hleast.1.2 (hnone _ hleast.1.1)
  | next hleast _ ih =>
    cases h' with
    | none hnone => exact absurd hleast.1.2 (hnone _ hleast.1.1)
    | next hleast' hmore =>
      cases hleast.unique hleast'
      rw [ih hmore]

/-- Chosen places are valid, and none is before the start. -/
theorem valid_of_mem (h : Chosen valid size start places) :
    ∀ p ∈ places, start ≤ p ∧ valid p := by
  induction h with
  | none => simp
  | next hleast _ ih =>
    intro p hp
    rcases List.mem_cons.mp hp with rfl | hp
    · exact hleast.1
    · obtain ⟨hle, hvalid⟩ := ih p hp
      have := hleast.1.1
      exact ⟨by omega, hvalid⟩

/-- Chosen places do not overlap. -/
theorem pairwise (h : Chosen valid size start places) :
    places.Pairwise fun p q => p + size ≤ q := by
  induction h with
  | none => exact .nil
  | next _ hmore ih => exact .cons (fun q hq => (hmore.valid_of_mem q hq).1) ih

/-- If valid places never overlap, all of them are chosen. -/
theorem mem_of_valid (h : Chosen valid size start places)
    (hapart : ∀ {p q}, valid p → valid q → p < q → p + size ≤ q) {p : Nat} (hstart : start ≤ p)
    (hp : valid p) : p ∈ places := by
  induction h with
  | none hnone => exact absurd hp (hnone p hstart)
  | next hleast _ ih =>
    rcases Nat.eq_or_lt_of_le (hleast.2 ⟨hstart, hp⟩) with rfl | hlt
    · exact List.mem_cons_self
    · exact List.mem_cons_of_mem _ (ih (hapart hleast.1.2 hp hlt))

end Chosen

/-! ### The matches of a needle of one word -/

section Scans

variable {needle : Needle} {word mark text : List Char} {here : List Char → Bool} {start : Nat}

/-- The span of a word at a place. -/
def wordSpan (word : List Char) (place : Nat) : Span :=
  ⟨place, place + word.length⟩

/-- The span of no character behind a word at a place. -/
def spanBehind (word : List Char) (place : Nat) : Span :=
  ⟨place + word.length, place + word.length⟩

/-- The matches of a needle of one word are the chosen places at which the word is there. -/
theorem Needle.Scans.chosen_of_matches (h : needle.Scans word here) {spans : List Span}
    (hmatches : needle.Matches text start spans) :
    ∃ places, Chosen (fun p => here (text.drop p) = true) word.length start places ∧
      spans = places.map (wordSpan word) := by
  have hpos := List.length_pos_iff.mpr h.ne_nil
  induction hmatches with
  | none hfind =>
    refine ⟨[], .none fun p hp => ?_, rfl⟩
    rw [h.findAt_eq_none_iff.mp hfind p hp]
    exact Bool.false_ne_true
  | full hfind _ _ ih =>
    obtain ⟨hleast, hstop⟩ := h.findAt_eq_some_iff.mp hfind
    obtain ⟨places, hplaces, rfl⟩ := ih
    rw [hstop] at hplaces
    refine ⟨_, .next hleast hplaces, ?_⟩
    rw [List.map_cons, wordSpan, ← hstop]
  | empty hfind heq | last hfind heq =>
    -- A word with characters has no empty match.
    have hstop := (h.findAt_eq_some_iff.mp hfind).2
    omega

/-- Behind the characters from a place to the word come those of the word. -/
theorem extract_word {place : Nat} (hstart : start ≤ place) (hword : word <+: text.drop place) :
    text.extract start (place + word.length) = text.extract start place ++ word := by
  obtain ⟨n, rfl⟩ := Nat.exists_eq_add_of_le hstart
  have hsize : start + n + word.length - start = n + word.length := by omega
  rw [List.extract_eq_take_drop, List.extract_eq_take_drop, hsize, Nat.add_sub_cancel_left,
    List.take_add, List.drop_drop, ← List.prefix_iff_eq_take.mp hword]

/-- **Insertion.** The text cut at the places of the word, with the word and a mark for each of them,
    is the text cut behind the word, with the mark put in. -/
theorem Pieces.fill_cut_word {places : List Nat}
    (hword : ∀ p ∈ places, start ≤ p ∧ word <+: text.drop p)
    (hpairs : places.Pairwise fun p q => p + word.length ≤ q) :
    (cut text start (places.map (wordSpan word))).fill (word ++ mark) =
      (cut text start (places.map (spanBehind word))).fill mark := by
  induction places generalizing start with
  | nil => rfl
  | cons place places ih =>
    obtain ⟨⟨hstart, hhere⟩, hmore⟩ := List.forall_mem_cons.mp hword
    obtain ⟨hlater, hpairs⟩ := List.pairwise_cons.mp hpairs
    have hrest := ih (fun p hp => ⟨hlater p hp, (hmore p hp).2⟩) hpairs
    simp only [List.map_cons, cut, fill_cons, wordSpan, spanBehind, extract_word hstart hhere]
    rw [List.append_assoc, List.append_assoc, ← hrest]

/-- Of a text that is cut without taking characters away, all is left without a value. -/
theorem Pieces.fill_nil_of_empty (places : List Nat) :
    (cut text start (places.map (spanBehind word))).fill [] =
      (cut text start (places.map (spanBehind word))).text := by
  have hempty : ∀ place, text.extract place place = [] := by
    intro place
    rw [List.extract_eq_take_drop, Nat.sub_self, List.take_zero]
  induction places generalizing start with
  | nil => rfl
  | cons place places ih =>
    rw [List.map_cons, cut, fill_cons, ih]
    simp [spanBehind, cons, Pieces.text, hempty]

/-- **Deletion.** Without the marks, the text cut behind places of the word is the text. -/
theorem Pieces.fill_nil_cut {places : List Nat} (hstart : ∀ p ∈ places, start ≤ p)
    (hpairs : places.Pairwise fun p q => p + word.length ≤ q) :
    (cut text start (places.map (spanBehind word))).fill [] = text.drop start := by
  rw [fill_nil_of_empty, text_cut]
  · intro span hspan
    obtain ⟨place, hplace, rfl⟩ := List.mem_map.mp hspan
    exact ⟨Nat.le_add_right_of_le (hstart place hplace), Nat.le_refl _⟩
  · refine List.pairwise_map.mpr (hpairs.imp fun hle => ?_)
    exact Nat.le_add_right_of_le hle

end Scans

end PageLoom
