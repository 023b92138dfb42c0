import PageLoom.Splice.Needle
import PageLoom.Text.Search

namespace PageLoom

/-!
# Literal words as needles

* `Needle.literal` — matches a word as it is written; the empty word matches nowhere.
-/

/-- Matches the word as it is written. The empty word never matches. -/
def Needle.literal (word : List Char) : Needle where
  find _ rest :=
    if word.isEmpty then none
    else (indexOf? word rest).map fun i => ⟨i, i + word.length⟩
  inside {_ rest span} h := by
    split at h
    · simp at h
    · obtain ⟨i, hi, rfl⟩ := Option.map_eq_some_iff.mp h
      exact ⟨Nat.le_add_right .., indexOf?_bound hi⟩

end PageLoom
