import PageLoom.Indent.Tag

namespace PageLoom

/-!
# Shapes of lines

The shape of a line is what its tags do to the depth: how many elements it opens and closes,
how many of the closings stand in front, and whether a raw element is left open at its end.

* `voidElements`, `rawElements` — elements without a body, and those whose body is no markup;
* `LineShape` — the shape of a line;
* `shapeOf` — the shape of a line of markup.
-/

/-- The elements that have no body. -/
def voidElements : List (List Char) :=
  ["area", "base", "br", "col", "embed", "hr", "img", "input", "link", "meta", "source",
   "track", "wbr"].map String.toList

/-- The elements whose body is taken as it is. -/
def rawElements : List (List Char) :=
  ["pre", "textarea", "script", "style"].map String.toList

/-- What the tags of a line do: the closings before any other tag on a line that starts with
    one, all openings and closings, and the raw element that is still open at the end. -/
structure LineShape where
  leadingCloses : Nat
  opens : Nat
  closes : Nat
  raw : Option (List Char)
  deriving DecidableEq, Repr

namespace LineShape

/-- The shape of a line without tags. -/
def flat : LineShape :=
  ⟨0, 0, 0, none⟩

/-- The shape with one more closing in front. -/
def close (leading : Bool) (shape : LineShape) : LineShape :=
  { shape with
    leadingCloses := shape.leadingCloses + (if leading then 1 else 0)
    closes := shape.closes + 1 }

/-- The shape with one more opening in front. -/
def openOne (shape : LineShape) : LineShape :=
  { shape with opens := shape.opens + 1 }

@[simp] theorem raw_close (leading : Bool) (shape : LineShape) :
    (shape.close leading).raw = shape.raw := rfl

@[simp] theorem opens_close (leading : Bool) (shape : LineShape) :
    (shape.close leading).opens = shape.opens := rfl

@[simp] theorem closes_close (leading : Bool) (shape : LineShape) :
    (shape.close leading).closes = shape.closes + 1 := rfl

@[simp] theorem leadingCloses_close (leading : Bool) (shape : LineShape) :
    (shape.close leading).leadingCloses = shape.leadingCloses + if leading then 1 else 0 := rfl

@[simp] theorem raw_openOne (shape : LineShape) : shape.openOne.raw = shape.raw := rfl

@[simp] theorem opens_openOne (shape : LineShape) : shape.openOne.opens = shape.opens + 1 := rfl

@[simp] theorem closes_openOne (shape : LineShape) : shape.openOne.closes = shape.closes := rfl

@[simp] theorem leadingCloses_openOne (shape : LineShape) :
    shape.openOne.leadingCloses = shape.leadingCloses := rfl

/-- The depth after a line of this shape. -/
def after (shape : LineShape) (depth : Nat) : Nat :=
  depth + shape.opens - shape.closes

end LineShape

/-- The tag opens an element that has a body. -/
def Tag.opensBody (tag : Tag) : Bool :=
  !tag.closing && !tag.selfClosed && !voidElements.contains tag.name

/-- The shape of a text, where `leading` says that only closings came before. The body of a raw
    element that ends in the text is passed over. -/
def shapeFrom (leading : Bool) (text : List Char) : LineShape :=
  match _next : Tag.next? text with
  | none => .flat
  | some (tag, rest) =>
    if tag.closing then (shapeFrom leading rest).close leading
    else if !tag.opensBody then shapeFrom false rest
    else if rawElements.contains tag.name then
      match closeIndex? tag.name rest with
      | none => { LineShape.flat with opens := 1, raw := some tag.name }
      | some skipped => (shapeFrom false (rest.drop skipped)).openOne
    else (shapeFrom false rest).openOne
termination_by text.length
decreasing_by
  all_goals have shorter := Tag.next?_length _next
  · exact shorter
  · exact shorter
  · exact Nat.lt_of_le_of_lt (List.length_drop ▸ Nat.sub_le ..) shorter
  · exact shorter

/-- A text without a tag is flat. -/
theorem shapeFrom_of_none {text : List Char} (h : Tag.next? text = none) (leading : Bool) :
    shapeFrom leading text = .flat := by
  unfold shapeFrom
  split
  · rfl
  · rename_i hnext
    rw [h] at hnext
    cases hnext

/-- The shape of a text is that of its first tag and of what follows the tag. -/
theorem shapeFrom_of_some {text rest : List Char} {tag : Tag}
    (h : Tag.next? text = some (tag, rest)) (leading : Bool) :
    shapeFrom leading text =
      if tag.closing then (shapeFrom leading rest).close leading
      else if !tag.opensBody then shapeFrom false rest
      else if rawElements.contains tag.name then
        match closeIndex? tag.name rest with
        | none => { LineShape.flat with opens := 1, raw := some tag.name }
        | some skipped => (shapeFrom false (rest.drop skipped)).openOne
      else (shapeFrom false rest).openOne := by
  rw [shapeFrom]
  split
  · rename_i hnext
    rw [h] at hnext
    cases hnext
  · rename_i found foundRest hnext
    rw [h] at hnext
    obtain ⟨rfl, rfl⟩ := Prod.mk.inj (Option.some.inj hnext)
    rfl

/-- The shape of a line of markup. -/
def shapeOf (line : List Char) : LineShape :=
  shapeFrom (['<', '/'].isPrefixOf line) line

/-- An empty line is flat. -/
@[simp] theorem shapeOf_nil : shapeOf [] = .flat :=
  shapeFrom_of_none rfl _

end PageLoom
