import PageLoom.Markdown.Block
import PageLoom.Markdown.Source

namespace PageLoom.Markdown

/-!
# Tables

A table starts with a row of heads and a row of hyphens with as many columns. Bars part the
cells of a row, except those after a backslash.

* `columnCount` — the number of columns of a row of heads;
* `alignments?` — the columns of a row of hyphens;
* `cells`, `rowOf` — the cells of a row.
-/

/-- The number of bars that are not right behind a backslash. `behind` is the character before
    the text. -/
private def barCount (behind : Char) : List Char → Nat
  | [] => 0
  | c :: rest => (if c = '|' && behind ≠ '\\' then 1 else 0) + barCount c rest

/-- The text after the last bar that is not right behind a backslash. -/
private def afterLastBar (behind : Char) (tail : List Char) : List Char → List Char
  | [] => tail
  | c :: rest => afterLastBar c (if c = '|' && behind ≠ '\\' then rest else tail) rest

/-- The number of columns of a row of heads, if it has a bar at all. Bars at its ends part
    nothing. -/
def columnCount (text : List Char) : Nat :=
  let bars := barCount ' ' text
  if bars = 0 then 0
  else
    let inner := if (text.dropWhile isInlineBlank).head? = some '|' then bars - 1 else bars
    if isBlankLine (afterLastBar ' ' [] text) then inner else inner + 1

/-- How far the reading of a column of hyphens is: its alignment, whether it has begun, and
    whether it has a hyphen. -/
private structure ColumnDraft where
  alignment : Alignment
  begun : Bool
  hyphen : Bool

private def ColumnDraft.start : ColumnDraft :=
  ⟨.unset, false, false⟩

/-- The alignment after a colon. -/
private def ColumnDraft.colon (draft : ColumnDraft) : ColumnDraft :=
  let alignment := match draft.begun, draft.alignment with
    | false, .unset => .left
    | true, .left => .center
    | true, .unset => .right
    | _, alignment => alignment
  { draft with alignment, begun := true }

/-- Reads the columns of hyphens. Every bar ends a column that has a hyphen, and there is at
    least one bar. -/
private def readColumns (reversed : List Alignment) (draft : ColumnDraft) :
    List Char → Option (List Alignment)
  | [] =>
    if reversed.isEmpty then none
    else some ((if draft.begun then draft.alignment :: reversed else reversed).reverse)
  | c :: rest =>
    if c = ' ' then readColumns reversed draft rest
    else if c = ':' then readColumns reversed draft.colon rest
    else if c = '-' then readColumns reversed { draft with begun := true, hyphen := true } rest
    else if c = '|' then
      if draft.hyphen then readColumns (draft.alignment :: reversed) .start rest else none
    else none

/-- The columns of a row of hyphens, which is set in by three columns at most. -/
def alignments? (line : LineRest) : Option (List Alignment) :=
  let (blanks, start) := line.takeSpace 4
  if 4 ≤ blanks then none
  else
    match start.rest with
    | '|' :: rest => readColumns [] .start rest
    | rest => readColumns [] .start rest

/-- The cells of a row, the current one of which has the characters `reversed` so far. A bar
    behind a backslash belongs to its cell, without the backslash. -/
private def cellsFrom (reversed : List Char) : List Char → List (List Char)
  | [] => if isBlankLine reversed then [] else [reversed.reverse]
  | '\\' :: '|' :: rest => cellsFrom ('|' :: reversed) rest
  | c :: rest =>
    if c = '|' then reversed.reverse :: cellsFrom [] rest else cellsFrom (c :: reversed) rest

/-- The cells of a row, without the blanks around them. -/
def cells (text : List Char) : List (List Char) :=
  let inner := match text with
    | '|' :: rest => rest
    | rest => rest
  (cellsFrom [] inner).map fun cell =>
    ((cell.dropWhile isInlineBlank).reverse.dropWhile isInlineBlank).reverse

/-- The cells of a row with `count` columns, as many as there are columns. -/
def rowOf (count : Nat) (text : List Char) : List (List Char) :=
  (cells text).take count ++ List.replicate (count - (cells text).length) []

end PageLoom.Markdown
