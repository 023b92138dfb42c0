import PageLoom.Markdown.Block
import PageLoom.Markdown.Marker

namespace PageLoom.Markdown

/-!
# Drafts

While lines are read, some blocks that hold other blocks are still open: a later line may go on
with them.

* `Frame` — an open block, with the blocks in it so far;
* `Draft` — the open blocks and what was read before;
* `Draft.follow` — how far a line goes on with the open blocks;
* `Draft.add`, `Draft.close`, `Draft.finishList` — changes of the open blocks.
-/

/-- An open block, with the blocks in it so far, the last one first. An item goes on on lines
    that are set in by its columns. -/
inductive Frame where
  | quote (blocks : List Block)
  | list (marker : ListMarker) (tight : Bool) (items : List (List Block))
  | item (indent : Nat) (blocks : List Block)
  | footnote (label : List Char) (blocks : List Block)

/-- The line without what makes it go on with an open block, if it does. A blank line goes on
    with items and footnotes. -/
def Frame.follow? (frame : Frame) (line : LineRest) : Option LineRest :=
  let indented (columns : Nat) : Option LineRest :=
    let (taken, after) := line.takeSpace columns
    if taken = columns || after.isAtEnd then some after else none
  match frame with
  | .quote _ =>
    let (_, start) := line.takeSpace 3
    match start.rest with
    | '>' :: _ => some ((start.after 1).takeSpace 1).2
    | _ => none
  | .list _ _ _ => some line
  | .item indent _ => indented indent
  | .footnote _ _ => indented 4

/-- The open blocks, the innermost one first, and the finished blocks outside of them, the last
    one first. `blankBefore` tells that the line before was blank, `emptyItem` that it had the
    marker of an item and nothing else. A task marker waits for the next paragraph. -/
structure Draft where
  frames : List Frame
  blocks : List Block
  blankBefore : Bool
  emptyItem : Bool
  task : Option Bool
  definitions : Definitions

namespace Draft

/-- The draft of a text of which nothing was read. -/
def empty : Draft :=
  ⟨[], [], false, false, none, ⟨[], []⟩⟩

/-- Adds a finished block to the innermost open one. -/
def add (draft : Draft) (block : Block) : Draft :=
  match draft.frames with
  | [] => { draft with blocks := block :: draft.blocks }
  | .quote blocks :: outer => { draft with frames := .quote (block :: blocks) :: outer }
  | .list marker tight items :: outer =>
    { draft with frames := .list marker tight ([block] :: items) :: outer }
  | .item indent blocks :: outer => { draft with frames := .item indent (block :: blocks) :: outer }
  | .footnote label blocks :: outer =>
    { draft with frames := .footnote label (block :: blocks) :: outer }

/-- Adds a finished item to the innermost list. -/
def addItem (draft : Draft) (blocks : List Block) : Draft :=
  match draft.frames with
  | .list marker tight items :: outer =>
    { draft with frames := .list marker tight (blocks :: items) :: outer }
  | _ => draft

/-- Opens a block. -/
def push (draft : Draft) (frame : Frame) : Draft :=
  { draft with frames := frame :: draft.frames }

/-- Closes the innermost open block. -/
def close (draft : Draft) : Draft :=
  match draft.frames with
  | [] => draft
  | frame :: outer =>
    let outside := { draft with frames := outer }
    match frame with
    | .quote blocks => outside.add (.quote blocks.reverse)
    | .item _ blocks => outside.addItem blocks.reverse
    | .footnote label blocks => outside.add (.footnote label blocks.reverse)
    | .list marker tight items =>
      let start := if isBullet marker.symbol then none else some marker.number
      let closed := outside.add (.list start tight items.reverse)
      if tight then { closed with emptyItem := false } else closed

/-- Closes open blocks. -/
def closeMany (draft : Draft) (count : Nat) : Draft :=
  count.repeat close draft

/-- How many of the open blocks, from the outermost one on, a line goes on with, and what is
    left of the line. -/
private def followFrames (line : LineRest) : List Frame → Nat × LineRest
  | [] => (0, line)
  | frame :: inner =>
    match frame.follow? line with
    | none => (0, line)
    | some rest =>
      let (count, after) := followFrames rest inner
      (count + 1, after)

/-- How many of the open blocks a line goes on with, and what is left of the line. -/
def follow (draft : Draft) (text : List Char) : Nat × LineRest :=
  followFrames (.ofText text) draft.frames.reverse

/-- What is left of a line that goes on with all open blocks. -/
def follow? (draft : Draft) (text : List Char) : Option LineRest :=
  let (count, rest) := draft.follow text
  if count = draft.frames.length then some rest else none

/-- The innermost open block is an item. -/
def inItem (draft : Draft) : Bool :=
  match draft.frames with
  | .item _ _ :: _ => true
  | _ => false

/-- The innermost open block is a list. -/
def inList (draft : Draft) : Bool :=
  match draft.frames with
  | .list _ _ _ :: _ => true
  | _ => false

/-- The innermost open block is a footnote. -/
def inFootnote (draft : Draft) : Bool :=
  match draft.frames with
  | .footnote _ _ :: _ => true
  | _ => false

/-- Closes an item that began with a blank line if another blank line followed. -/
private def closeEmptyItem (draft : Draft) : Draft :=
  let draft := if draft.emptyItem && draft.blankBefore && draft.inItem then draft.close else draft
  { draft with emptyItem := false }

/-- Tells the list around the innermost open block that its items are set apart. -/
private def loosen (draft : Draft) : Draft :=
  match draft.frames with
  | inner :: .list marker _ items :: outer =>
    { draft with frames := inner :: .list marker false items :: outer }
  | _ => draft

/-- Makes ready for a block that is no item: closes the list that the line left, and sets
    apart the items of the one around it if the line before was blank. -/
def finishList (draft : Draft) : Draft :=
  let draft := draft.closeEmptyItem
  let draft := if draft.inList then draft.close else draft
  if draft.blankBefore then { draft.loosen with blankBefore := false } else draft

/-- Makes ready for an item: goes on with the innermost list if the marker fits, or opens a
    list. -/
def continueList (draft : Draft) (marker : ListMarker) : Draft :=
  let draft := draft.closeEmptyItem
  match draft.frames with
  | .list first tight items :: outer =>
    if first.symbol = marker.symbol then
      { draft with
        frames := .list first (tight && !draft.blankBefore) items :: outer
        blankBefore := false }
    else { draft.finishList.push (.list marker true []) with blankBefore := false }
  | _ => { draft.finishList.push (.list marker true []) with blankBefore := false }

/-- Notes a link definition. The first one of a label counts. -/
def define (draft : Draft) (label : List Char) (target : LinkTarget) : Draft :=
  let links := draft.definitions.links
  if links.any (·.1 = label) then draft
  else { draft with definitions := { draft.definitions with links := links ++ [(label, target)] } }

/-- Opens a footnote. Footnotes do not stand in each other directly. -/
def openFootnote (draft : Draft) (label key : List Char) : Draft :=
  let draft := draft.finishList
  let draft := if draft.inFootnote then draft.close else draft
  let footnotes := key :: draft.definitions.footnotes
  { draft with definitions := { draft.definitions with footnotes } }.push (.footnote label [])

end Draft

end PageLoom.Markdown
