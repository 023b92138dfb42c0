import PageLoom.Indent.Shape
import PageLoom.Text.Blank
import PageLoom.Text.Lines

namespace PageLoom

/-!
# Indenting markup

Markup is indented line by line. A line is trimmed and put under as many indents as there are
elements open before it; closings in front of the line count already. Blank lines in a row
become one empty line, and none is left at the start. From a line that leaves a raw element
open, all lines up to the one with its end are copied as they are.

* `IndentState` — what the lines so far leave behind;
* `indentLine` — one line, and the state after it;
* `indent` — a whole text.
-/

/-- The state between two lines: the number of open elements, the raw element in whose body
    the place is, and whether the line before was blank. -/
structure IndentState where
  depth : Nat
  raw : Option (List Char)
  previousBlank : Bool
  deriving DecidableEq, Repr

/-- The state before the first line. -/
def IndentState.start : IndentState :=
  ⟨0, none, true⟩

/-- The state after a line in the body of a raw element. -/
def IndentState.afterRaw (state : IndentState) (name line : List Char) : IndentState :=
  match closeIndex? name line with
  | none => { state with raw := some name, previousBlank := false }
  | some place =>
    let tail := shapeOf (((line.drop place).dropWhile (· ≠ '>')).drop 1)
    ⟨tail.after (state.depth - 1), tail.raw, false⟩

/-- The text that a line becomes, its ending included, and the state after it. -/
def indentLine (width : Nat) (state : IndentState) (line : List Char) :
    List Char × IndentState :=
  match state.raw with
  | some name => (line ++ ['\n'], state.afterRaw name line)
  | none =>
    let trimmed := trim line
    if trimmed.isEmpty then
      (if state.previousBlank then [] else ['\n'], { state with previousBlank := true })
    else
      let shape := shapeOf trimmed
      let level := state.depth - shape.leadingCloses
      let body := if shape.raw.isSome then trimStart line else trimmed
      (List.replicate (level * width) ' ' ++ body ++ ['\n'],
        ⟨shape.after state.depth, shape.raw, false⟩)

/-- The lines indented one after the other. -/
def indentLines (width : Nat) (state : IndentState) : List (List Char) → List Char
  | [] => []
  | line :: rest =>
    let (text, next) := indentLine width state line
    text ++ indentLines width next rest

/-- The text with its lines indented, `width` spaces for each open element. -/
def indent (width : Nat) (text : List Char) : List Char :=
  indentLines width .start (lines text)

end PageLoom
