import PageLoom.Text.Search

namespace PageLoom

/-!
# Tags

The tags of markup, as far as indenting needs to know them: a tag starts with `<`, an optional
slash and a name, and ends at the next `>`, whatever stands between.

* `Tag` — a tag;
* `Tag.next?` — the first tag of a text and what follows it;
* `closeIndex?` — where the end of a raw element begins.
-/

/-- A tag: whether it closes an element, its name in lower case, and whether it ends in `/>`. -/
structure Tag where
  closing : Bool
  name : List Char
  selfClosed : Bool
  deriving DecidableEq, Repr

/-- A character that continues the name of a tag. -/
def isTagNameChar (c : Char) : Bool :=
  c.isAlphanum || c = '-'

namespace Tag

/-- The tag whose `<`, and slash if it is `closing`, have been read. -/
def afterOpening? (closing : Bool) (text : List Char) : Option (Tag × List Char) :=
  match text with
  | [] => none
  | c :: _ =>
    if !c.isAlpha then none
    else
      let name := text.takeWhile isTagNameChar
      let more := text.dropWhile isTagNameChar
      let body := more.takeWhile (· ≠ '>')
      match more.dropWhile (· ≠ '>') with
      | [] => none
      | _ :: rest => some (⟨closing, name.map Char.toLower, body.getLast? = some '/'⟩, rest)

/-- The tag whose `<` has been read. -/
def afterAngle? : List Char → Option (Tag × List Char)
  | [] => none
  | c :: rest => if c = '/' then afterOpening? true rest else afterOpening? false (c :: rest)

/-- The first tag of the text and what follows it. -/
def next? : List Char → Option (Tag × List Char)
  | [] => none
  | c :: rest =>
    if c = '<' then
      match afterAngle? rest with
      | some found => some found
      | none => next? rest
    else next? rest

/-- A text without a property at its start is no shorter than what is left of it. -/
private theorem length_dropWhile_le (p : Char → Bool) (text : List Char) :
    (text.dropWhile p).length ≤ text.length :=
  (List.dropWhile_suffix p).length_le

/-- A tag that has been opened takes at least one character. -/
theorem afterOpening?_length {closing : Bool} {text rest : List Char} {tag : Tag}
    (h : afterOpening? closing text = some (tag, rest)) : rest.length < text.length := by
  unfold afterOpening? at h
  split at h
  · simp at h
  · rename_i c tail
    simp only at h
    split at h
    · simp at h
    · split at h
      · simp at h
      · rename_i c' rest' heq
        simp only [Option.some.injEq, Prod.mk.injEq] at h
        obtain ⟨-, rfl⟩ := h
        have h1 := length_dropWhile_le (· ≠ '>') ((c :: tail).dropWhile isTagNameChar)
        have h2 := length_dropWhile_le isTagNameChar (c :: tail)
        rw [heq] at h1
        simp only [List.length_cons] at h1 h2 ⊢
        omega

/-- What follows a tag is shorter than the text. -/
theorem next?_length {text rest : List Char} {tag : Tag} (h : next? text = some (tag, rest)) :
    rest.length < text.length := by
  induction text with
  | nil => simp [next?] at h
  | cons c tail ih =>
    simp only [next?] at h
    simp only [List.length_cons]
    split at h
    · split at h
      · rename_i found hf
        obtain rfl := Option.some.inj h
        unfold afterAngle? at hf
        split at hf
        · simp at hf
        · split at hf
          · have := afterOpening?_length hf
            simp only [List.length_cons]
            omega
          · have := afterOpening?_length hf
            omega
      · have := ih h
        omega
    · have := ih h
      omega

end Tag

/-- The place in the text where the end of a raw element begins: the first `</` with the name
    after it, in any case. What follows the name does not matter. -/
def closeIndex? (name text : List Char) : Option Nat :=
  indexOf? ('<' :: '/' :: name) (text.map Char.toLower)

end PageLoom
