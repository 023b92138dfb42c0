import PageLoom.Proofs.PatternReader
import PageLoom.Proofs.Splice.Places

namespace PageLoom

/-!
# Words that are replaced

There are several ways to say what becomes of a text in which a word is replaced, and all of them agree.
The text may be read from left to right, one character or one word at a time. It may be cut around the
word, at the places chosen from left to right, and its parts joined by the value. And the word may be
escaped and read as a regular expression, which then matches just where the word is found.

* `replaceWord` — the text read from left to right;
* `Pieces.gaps`, `Pieces.fill_eq_intercalate` — the parts of a text, and a value between them;
* `Pattern.find_letters` — the letters of a word, as a pattern, find what a search for the word finds;
* `Needle.pattern_letters` — so this pattern and the word are the same needle;
* `splice_literal_agrees` — all of it.
-/

/-! ### From left to right -/

/-- The text read from left to right: where the word is written the value is put down and the word is
    passed, and every other character is copied. The empty word counts as written nowhere. -/
def replaceWord (word value : List Char) : List Char → List Char
  | [] => []
  | c :: rest =>
    if _here : word ≠ [] ∧ word <+: c :: rest then
      value ++ replaceWord word value ((c :: rest).drop word.length)
    else c :: replaceWord word value rest
termination_by text => text.length
decreasing_by
  · have := List.length_pos_iff.mpr _here.1
    simp only [List.length_drop, List.length_cons]
    omega
  · exact Nat.lt_succ_self _

section Words

variable {word : List Char}

/-- **Reading.** Splicing a word with characters reads the text once, from left to right. -/
theorem splice_literal (hne : word ≠ []) (value text : List Char) :
    splice (.literal word) value text = replaceWord word value text := by
  have hscans := scans_literal hne
  fun_induction replaceWord word value text with
  | case1 => exact hscans.splice_nil
  | case2 c rest hhere ih =>
    rw [hscans.splice_here (List.isPrefixOf_iff_prefix.mpr hhere.2), ih]
  | case3 c rest hhere ih =>
    have hnot : word.isPrefixOf (c :: rest) = false := by
      rw [← Bool.not_eq_true, List.isPrefixOf_iff_prefix]
      exact fun hp => hhere ⟨hne, hp⟩
    rw [hscans.splice_skip hnot, ih]

/-! ### Parts -/

/-- The parts of a text that are no matches: the gaps before the matches, and the tail. -/
def Pieces.gaps (pieces : Pieces) : List (List Char) :=
  pieces.hits.map (·.1) ++ [pieces.tail]

/-- **Parts.** Pieces filled with a value are their parts with the value between them. -/
theorem Pieces.fill_eq_intercalate (value : List Char) (pieces : Pieces) :
    pieces.fill value = value.intercalate pieces.gaps := by
  obtain ⟨hits, tail⟩ := pieces
  induction hits with
  | nil => simp [fill, gaps]
  | cons piece more ih =>
    have hmore : (⟨more, tail⟩ : Pieces).gaps ≠ [] := by simp [gaps]
    have hgaps : (⟨piece :: more, tail⟩ : Pieces).gaps = piece.1 :: (⟨more, tail⟩ : Pieces).gaps := rfl
    rw [hgaps, List.intercalate_cons_of_ne_nil hmore, ← ih]
    simp [fill]

/-- **Places.** The places at which a word is replaced are chosen from left to right. The parts of the
    text around the word at these places make the text if the word is put between them, and the
    spliced text if a value is. -/
theorem splice_literal_parts (hne : word ≠ []) (text : List Char) :
    ∃ places,
      (∀ others, Chosen (OccursAt word text) word.length 0 others ↔ others = places) ∧
      word.intercalate (Pieces.cut text 0 (places.map (wordSpan word))).gaps = text ∧
      ∀ value, splice (.literal word) value text =
        value.intercalate (Pieces.cut text 0 (places.map (wordSpan word))).gaps := by
  obtain ⟨spans, hmatches, hcut⟩ := @Needle.pieces_eq_cut text (.literal word) [] text rfl
  obtain ⟨places, hplaces, rfl⟩ := (scans_literal hne).chosen_of_matches hmatches
  simp only [isPrefixOf_drop_iff hne] at hplaces
  refine ⟨places, fun others => ⟨fun h => h.unique hplaces, fun h => h ▸ hplaces⟩, ?_, fun value => ?_⟩
  · have hword : ∀ p ∈ places, 0 ≤ p ∧ word <+: text.drop p := fun p hp =>
      ⟨Nat.zero_le p, (hplaces.valid_of_mem p hp).2.2⟩
    calc word.intercalate (Pieces.cut text 0 (places.map (wordSpan word))).gaps
        = (Pieces.cut text 0 (places.map (wordSpan word))).fill (word ++ []) := by
          rw [List.append_nil, Pieces.fill_eq_intercalate]
      _ = (Pieces.cut text 0 (places.map (spanBehind word))).fill [] :=
          Pieces.fill_cut_word hword hplaces.pairwise
      _ = text := Pieces.fill_nil_cut (fun p _ => Nat.zero_le p) hplaces.pairwise
  · rw [splice, hcut]
    exact Pieces.fill_eq_intercalate ..

/-- A word with characters is found somewhere just if it is part of the text. -/
theorem occursIn_literal (hne : word ≠ []) (text : List Char) :
    (Needle.literal word).occursIn text = true ↔ word <:+: text := by
  have hnone : (Needle.literal word).find [] text = none ↔ ¬ word <:+: text := by
    rw [← indexOf?_eq_none_iff_not_infix]
    simp [Needle.literal, hne]
  rw [← not_iff_not, Bool.not_eq_true, Needle.occursIn_eq_false_iff, hnone]

end Words

/-! ### Escaped words -/

namespace Pattern

/-- The escaped word, as a regular expression, denotes the sequence of its letters. -/
theorem read?_escapePattern (word : List Char) :
    read? (escapePattern word) = some (sequence (letters word).reverse) := by
  -- One unit of room is used for each letter, and one at the end.
  obtain ⟨spare, hspare⟩ := Nat.exists_eq_add_of_le (length_le_escapePattern word)
  have hgroup : group? (word.length + (spare + 1)) .none [] [] (escapePattern word ++ []) = _ :=
    group?_escapePattern (spare + 1) rfl [] [] word unrepeated_nil
  rw [List.append_nil, List.append_nil, group?_nil] at hgroup
  rw [read?, hspare, Nat.add_assoc, hgroup]
  rfl

/-- **Letters.** The letters of a word, as a pattern, find what a search for the word finds. What was
    passed before does not matter. -/
theorem find_letters (word before rest : List Char) :
    (sequence (letters word).reverse).find before rest =
      (indexOf? word rest).map fun i => ⟨i, i + word.length⟩ := by
  have hends : ∀ cursor, ((sequence (letters word).reverse).ends cursor).head? =
      if word <+: cursor.rest then some (cursor.skip word.length) else none := by
    intro cursor
    rw [ends_sequence, List.reverse_reverse, endsAll_letters]
    by_cases h : word <+: cursor.rest <;> simp [h]
  have hsettled : Cursor.Settled fun cursor => some (cursor.skip word.length) :=
    fun _ _ h => absurd h (Option.some_ne_none _)
  rw [find_of_head? hends hsettled, Option.map_eq_bind]
  refine Option.bind_congr fun i hi => ?_
  have hi := indexOf?_bound hi
  simp only [Cursor.skip_rest, List.length_drop, Option.map_some, Function.comp_apply,
    Option.some.injEq, Span.mk.injEq, true_and]
  omega

end Pattern

/-- Two needles that find the same are the same. -/
theorem Needle.eq_of_find {first second : Needle}
    (h : ∀ before rest, first.find before rest = second.find before rest) : first = second := by
  obtain ⟨find, inside⟩ := first
  obtain ⟨find', inside'⟩ := second
  obtain rfl : find = find' := funext fun before => funext (h before)
  rfl

/-- **Patterns of words.** The letters of a word with characters, as a pattern, are the same needle as
    the word. -/
theorem Needle.pattern_letters {word : List Char} (hne : word ≠ []) :
    Needle.pattern (Pattern.sequence (Pattern.letters word).reverse) = .literal word := by
  refine Needle.eq_of_find fun before rest => ?_
  have hword : word.isEmpty = false := by simp [hne]
  show Pattern.find _ before rest = if word.isEmpty then none else _
  rw [Pattern.find_letters, hword, if_neg Bool.false_ne_true]

/-! ### All ways to replace a word -/

/-- **Words.** A word with characters is replaced by reading the text once, from left to right. The
    places at which this happens are chosen from left to right without overlap, and the parts around
    them are joined by the value, as the word joins them to the text itself. Something is replaced
    just if the word is part of the text. The escaped word is a regular expression that can be read,
    whatever signs the word is made of, and it finds and replaces the same. -/
theorem splice_literal_agrees {word : List Char} (hne : word ≠ []) (value text : List Char) :
    splice (.literal word) value text = replaceWord word value text ∧
    (∃ places,
      (∀ others, Chosen (OccursAt word text) word.length 0 others ↔ others = places) ∧
      word.intercalate (Pieces.cut text 0 (places.map (wordSpan word))).gaps = text ∧
      splice (.literal word) value text =
        value.intercalate (Pieces.cut text 0 (places.map (wordSpan word))).gaps) ∧
    ((Needle.literal word).occursIn text = true ↔ word <:+: text) ∧
    ∃ pattern, Pattern.read? (escapePattern word) = some pattern ∧
      (∀ start, (Needle.pattern pattern).findAt text start =
        (Needle.literal word).findAt text start) ∧
      splice (.pattern pattern) value text = splice (.literal word) value text ∧
      (Needle.pattern pattern).occursIn text = (Needle.literal word).occursIn text := by
  obtain ⟨places, hchosen, htext, hparts⟩ := splice_literal_parts hne text
  refine ⟨splice_literal hne value text, ⟨places, hchosen, htext, hparts value⟩,
    occursIn_literal hne text, _, Pattern.read?_escapePattern word, ?_⟩
  rw [Needle.pattern_letters hne]
  exact ⟨fun _ => rfl, rfl, rfl⟩

/-- A word with a character of two bytes at both ends, and a sign of regular expressions between. -/
def echoWord : List Char :=
  ['é', '.', 'é']

/-- A text in which this word is written at three places. -/
def echoText : List Char :=
  ['é', '.', 'é', '.', 'é', '.', 'é']

/-- The word is replaced at the first place and at the last one. The place between overlaps both, and
    is passed over. -/
theorem splice_literal_agrees_echo :
    echoWord ≠ [] ∧ OccursAt echoWord echoText 2 ∧
      (∀ others, Chosen (OccursAt echoWord echoText) echoWord.length 0 others ↔ others = [0, 4]) ∧
      splice (.literal echoWord) ['a'] echoText = ['a', '.', 'a'] ∧
      ∃ pattern, Pattern.read? ['é', '\\', '.', 'é'] = some pattern ∧
        splice (.pattern pattern) ['a'] echoText = ['a', '.', 'a'] ∧
        (Needle.pattern pattern).occursIn echoText = true := by
  have hne : echoWord ≠ [] := by decide
  obtain ⟨hreads, ⟨places, hchosen, -, -⟩, hoccurs, pattern, hpattern, -, hsplice, hsame⟩ :=
    splice_literal_agrees hne ['a'] echoText
  have hresult : replaceWord echoWord ['a'] echoText = ['a', '.', 'a'] := by
    simp [replaceWord, echoWord, echoText]
  have hlast : IsLeast {p | 0 + echoWord.length ≤ p ∧ OccursAt echoWord echoText p} 4 := by
    have hbetween : ¬ OccursAt echoWord echoText 3 := by decide
    refine ⟨by decide, fun p hp => Nat.lt_of_le_of_ne hp.1 ?_⟩
    rintro rfl
    exact hbetween hp.2
  have hplaces : [0, 4] = places := by
    refine (hchosen _).mp (.next ⟨by decide, fun p _ => Nat.zero_le p⟩ (.next hlast (.none ?_)))
    intro p hp hhere
    have hle : p + 3 ≤ 7 := hhere.add_length_le
    have hstart : 7 ≤ p := hp
    omega
  refine ⟨hne, by decide, hplaces ▸ hchosen, hreads.trans hresult, pattern, hpattern, ?_, ?_⟩
  · rw [hsplice, hreads, hresult]
  · rw [hsame, hoccurs]
    decide

end PageLoom
