namespace PageLoom

/-!
# Searching a text for a word

* `indexFrom` — the first place at which a word occurs, counted from a given number;
* `indexOf?` — the same, counted from zero;
* `indexOf?_bound` — an occurrence lies inside the text.
-/

/-- The first place at which `word` occurs in the text, where the text's first character has
    the number `n`. The empty word occurs everywhere. -/
def indexFrom (word : List Char) (n : Nat) : List Char → Option Nat
  | [] => if word.isEmpty then some n else none
  | c :: rest =>
    if word.isPrefixOf (c :: rest) then some n else indexFrom word (n + 1) rest

/-- The first place at which `word` occurs in the text. -/
def indexOf? (word text : List Char) : Option Nat :=
  indexFrom word 0 text

/-- An occurrence counted from `n` is at `n` or later and ends inside the text. -/
theorem indexFrom_bound {word text : List Char} {n i : Nat}
    (h : indexFrom word n text = some i) :
    n ≤ i ∧ i + word.length ≤ n + text.length := by
  induction text generalizing n with
  | nil =>
    simp only [indexFrom] at h
    split at h
    · rename_i hw
      simp only [List.isEmpty_iff] at hw
      simp_all
    · simp at h
  | cons c rest ih =>
    simp only [indexFrom] at h
    split at h
    · rename_i hp
      have hl := (List.isPrefixOf_iff_prefix.mp hp).length_le
      simp only [Option.some.injEq] at h
      omega
    · have := ih h
      simp only [List.length_cons]
      omega

/-- An occurrence ends inside the text. -/
theorem indexOf?_bound {word text : List Char} {i : Nat} (h : indexOf? word text = some i) :
    i + word.length ≤ text.length := by
  have := indexFrom_bound h
  omega

end PageLoom
