import PageLoom.Pattern.Reader
import PageLoom.Proofs.PatternEnds
import PageLoom.Splice.Placeholder

namespace PageLoom

/-!
# Reading escaped words

An escaped word is read as the patterns of its characters, whatever signs it is made of, if no
repetition sign follows it.

* `Pattern.group?_escapePattern` — an escaped word is read as its letters;
* `Pattern.group?_gap` — `.*?` is read as the lazy gap, where `.` passes every character;
* `Pattern.ends_sequence` — the ends of a sequence are those of its factors in turn.
-/

namespace Pattern

/-- No repetition sign follows: the text can go on behind a complete pattern. -/
def Unrepeated (text : List Char) : Prop :=
  repetition? text = none

theorem unrepeated_nil : Unrepeated [] := rfl

/-- Only four characters are repetition signs or begin one. -/
theorem unrepeated_cons {c : Char} (rest : List Char) (h : c ∉ ['*', '+', '?', '{']) :
    Unrepeated (c :: rest) := by
  simp only [List.mem_cons, List.not_mem_nil, or_false, not_or] at h
  obtain ⟨h1, h2, h3, h4⟩ := h
  unfold Unrepeated repetition?
  split <;> simp_all

/-- An escaped text does not begin with a repetition sign. -/
theorem unrepeated_escapePattern {word rest : List Char} (h : Unrepeated rest) :
    Unrepeated (escapePattern word ++ rest) := by
  cases word with
  | nil => exact h
  | cons c word =>
    simp only [escapePattern, List.flatMap_cons]
    by_cases hc : c ∈ patternSigns
    · rw [if_pos (List.contains_iff_mem.mpr hc)]
      exact unrepeated_cons _ (by decide)
    · rw [if_neg (fun h => hc (List.contains_iff_mem.mp h))]
      refine unrepeated_cons _ fun hs => hc ?_
      simp only [List.mem_cons, List.not_mem_nil, or_false] at hs
      rcases hs with rfl | rfl | rfl | rfl <;> decide

/-- Without a repetition sign a pattern stays as it is. -/
theorem quantified_eq (fuel : Nat) (pattern : Pattern) {text : List Char} (h : Unrepeated text) :
    quantified fuel pattern text = (pattern, text) := by
  have hn : repetition? text = none := h
  cases fuel with
  | zero => rfl
  | succ fuel => rw [quantified, hn]

/-- An escaped sign stands for itself. -/
theorem escaped_sign (flags : PatternFlags) {c : Char} (hc : c ∈ patternSigns) :
    escaped flags c = .one ⟨[.range c c], false, flags.foldCase⟩ := by
  simp only [patternSigns, List.mem_cons, List.not_mem_nil, or_false] at hc
  rcases hc with rfl | rfl | rfl | rfl | rfl | rfl | rfl | rfl | rfl | rfl | rfl | rfl | rfl | rfl |
    rfl | rfl | rfl | rfl <;> rfl

/-- A sign behind a backslash is read as the pattern of one character. -/
theorem group?_sign (fuel : Nat) (flags : PatternFlags) (branches factors : List Pattern)
    {c : Char} {rest : List Char} (hc : c ∈ patternSigns) (hrest : Unrepeated rest) :
    group? (fuel + 1) flags branches factors ('\\' :: c :: rest) =
      group? fuel flags branches (.one ⟨[.range c c], false, flags.foldCase⟩ :: factors) rest := by
  simp only [group?, escaped_sign flags hc, quantified_eq _ _ hrest]

/-- A character without a meaning of its own is read as the pattern of itself. -/
theorem group?_plain (fuel : Nat) (flags : PatternFlags) (branches factors : List Pattern)
    {c : Char} {rest : List Char} (hc : c ∉ patternSigns) (hrest : Unrepeated rest) :
    group? (fuel + 1) flags branches factors (c :: rest) =
      group? fuel flags branches (.one ⟨[.range c c], false, flags.foldCase⟩ :: factors) rest := by
  have hsign : ∀ d ∈ patternSigns, c ≠ d := fun d hd h => hc (h ▸ hd)
  have hown : Unrepeated (c :: rest) := unrepeated_cons rest fun h => by
    simp only [List.mem_cons, List.not_mem_nil, or_false] at h
    rcases h with rfl | rfl | rfl | rfl <;> exact hc (by decide)
  have hnone : repetition? (c :: rest) = none := hown
  conv_lhs => unfold group?
  split
  -- All branches but the last one are for signs.
  case h_13 heq =>
    obtain ⟨rfl, rfl⟩ := List.cons.inj heq
    simp only [hnone, Option.isSome_none, Bool.false_eq_true, if_false, quantified_eq _ _ hrest]
  case h_1 heq => exact absurd heq (List.cons_ne_nil _ _)
  all_goals
    rename_i heq
    exact absurd (List.cons.inj heq).1 (hsign _ (by decide))

/-- **Escaped words.** An escaped word is read as its letters, one after the other, if no
    repetition sign follows it. -/
theorem group?_escapePattern (fuel : Nat) {flags : PatternFlags} (hflags : flags.foldCase = false)
    (branches factors : List Pattern) (word : List Char) {rest : List Char}
    (hrest : Unrepeated rest) :
    group? (word.length + fuel) flags branches factors (escapePattern word ++ rest) =
      group? fuel flags branches ((letters word).reverse ++ factors) rest := by
  induction word generalizing factors with
  | nil => simp [escapePattern, letters]
  | cons c word ih =>
    have hnext : Unrepeated (escapePattern word ++ rest) := unrepeated_escapePattern hrest
    have hsplit : escapePattern (c :: word) ++ rest =
        (if patternSigns.contains c then ['\\', c] else [c]) ++ (escapePattern word ++ rest) := by
      simp [escapePattern]
    have hone : group? (word.length + fuel + 1) flags branches factors
        (escapePattern (c :: word) ++ rest) =
          group? (word.length + fuel) flags branches
            (.one ⟨[.range c c], false, false⟩ :: factors) (escapePattern word ++ rest) := by
      rw [hsplit]
      by_cases hc : c ∈ patternSigns
      · rw [if_pos (List.contains_iff_mem.mpr hc)]
        have hsign := group?_sign (word.length + fuel) flags branches factors hc hnext
        rwa [hflags] at hsign
      · rw [if_neg (fun h => hc (List.contains_iff_mem.mp h))]
        have hplain := group?_plain (word.length + fuel) flags branches factors hc hnext
        rwa [hflags] at hplain
    rw [List.length_cons, Nat.add_right_comm, hone, ih]
    simp [letters]

/-- Escaping a text does not make it shorter. -/
theorem length_le_escapePattern (word : List Char) : word.length ≤ (escapePattern word).length := by
  induction word with
  | nil => exact Nat.le_refl 0
  | cons c word ih =>
    have hc : 1 ≤ (if patternSigns.contains c then ['\\', c] else [c]).length := by
      split <;> simp
    simp only [escapePattern, List.flatMap_cons, List.length_append, List.length_cons] at ih hc ⊢
    omega

/-- The dot with a lazy star is read as the lazy gap, if the dot passes every character. -/
theorem group?_gap (fuel : Nat) {flags : PatternFlags} (hflags : flags.dotAll = true)
    (branches factors : List Pattern) {rest : List Char} (hrest : Unrepeated rest) :
    group? (fuel + 1) flags branches factors ('.' :: '*' :: '?' :: rest) =
      group? fuel flags branches (gap :: factors) rest := by
  have hstar : quantified (('*' :: '?' :: rest).length + 1) (.one .all) ('*' :: '?' :: rest) =
      (gap, rest) := by
    rw [quantified]
    simp only [repetition?]
    exact quantified_eq _ _ hrest
  simp only [group?, hflags, if_true]
  rw [show (⟨[], true, false⟩ : CharSet) = .all from rfl, hstar]

/-- The end of the text ends the pattern. -/
theorem group?_nil (fuel : Nat) (flags : PatternFlags) (branches factors : List Pattern) :
    group? (fuel + 1) flags branches factors [] =
      some (alternatives (sequence factors) branches, []) := by
  simp only [group?]

/-- The flag that lets the dot pass every character is read first. -/
theorem group?_dotAll (fuel : Nat) (branches factors : List Pattern) (rest : List Char) :
    group? (fuel + 1) .none branches factors ('(' :: '?' :: 's' :: ')' :: rest) =
      group? fuel ⟨true, false, false⟩ branches factors rest := by
  simp [group?, PatternFlags.read?, PatternFlags.none]

/-- The ends of a sequence are those of its factors, one after the other. -/
theorem ends_sequence (factors : List Pattern) (cursor : Cursor) :
    (sequence factors).ends cursor = endsAll factors.reverse cursor := by
  have key : ∀ (factors : List Pattern) (tail : Pattern) (more : List Pattern),
      (∀ c, tail.ends c = endsAll more c) →
      ∀ c, (factors.foldl (fun tail factor => if tail = .empty then factor else .seq factor tail)
        tail).ends c = endsAll (factors.reverse ++ more) c := by
    intro factors
    induction factors with
    | nil => exact fun _ _ h => h
    | cons factor factors ih =>
      intro tail more htail c
      rw [List.foldl_cons, ih _ (factor :: more)]
      · simp
      · intro c
        rw [endsAll]
        split
        · rename_i hempty
          have hmore : endsAll more = fun c => [c] := funext fun c => by
            rw [← htail, hempty, ends]
          rw [hmore, List.flatMap_singleton']
        · rw [ends]
          exact congrArg (fun k => (factor.ends c).flatMap k) (funext htail)
  rw [sequence]
  simpa using key factors .empty [] (fun _ => rfl) cursor

end Pattern

end PageLoom
