import PageLoom.Markdown.Draft
import PageLoom.Markdown.Reference
import PageLoom.Markdown.Table
import PageLoom.Markdown.Tag
import PageLoom.Text.Search

namespace PageLoom.Markdown

/-!
# Reading blocks

A line first goes on with the open blocks as far as it fits, then opens new ones with its
markers. What is left starts a block that holds no others, which may take further lines.

* `footnoteLabel?`, `interrupts` — the lines that a paragraph does not go on with;
* `readIndented`, `readFenced`, `readHtml`, `readTable`, `readParagraph` — the lines of a block;
* `readBlock`, `readBlocks` — the blocks of a text.
-/

/-- The label of a footnote that starts with the text, and what follows its colon. -/
def footnoteLabel? : List Char → Option (List Char × List Char)
  | '[' :: '^' :: text =>
    match label? false text with
    | some (label, ':' :: rest) => some (label, rest)
    | _ => none
  | _ => none

/-- The marker of an item at the start of a line that may interrupt a paragraph: whether it is
    a bullet or the number one, and what follows it. -/
private def interruptingMarker? (text : List Char) : Option (Bool × List Char) :=
  let marked : Option (Bool × List Char) :=
    match text with
    | [] => none
    | c :: rest =>
      if isBullet c then some (true, rest)
      else (itemNumber? text).map fun (digits, _) =>
        (numberOf digits = 1, text.drop (digits.length + 1))
  marked.filter fun (_, rest) => rest.head?.all isSpaceOrTab

/-- An item interrupts a paragraph if it is a bullet or has the number one, and does not start
    with two blank lines. Outside of the paragraph's own containers, and in a table, any item
    does. -/
private def itemInterrupts (inside inTable : Bool) (text : List Char) (following : List SourceLine) :
    Bool :=
  match interruptingMarker? text with
  | none => false
  | some (first, rest) =>
    !inside || inTable ||
      first && !(isBlankLine rest && following.head?.all fun line => isBlankLine line.text)

/-- A paragraph does not go on with this line. `inside` tells that the line goes on with all
    open blocks; `following` are the lines after it. -/
def interrupts (inside inTable : Bool) (text : List Char) (following : List SourceLine) : Bool :=
  text.isEmpty || isThematicBreak text || (headingLevel? text).isSome || (fence? text).isSome ||
    text.head? = some '>' || itemInterrupts inside inTable text following ||
    startsHtmlBlock text || (footnoteLabel? text).isSome

/-! ### Code and HTML -/

/-- The lines that go on with indented code: whether each is blank, and its text. -/
private def indentedLines (draft : Draft) : List SourceLine → List (Bool × List Char)
  | [] => []
  | line :: more =>
    match draft.follow? line.text with
    | none => []
    | some rest =>
      let (taken, code) := rest.takeSpace 4
      if taken = 4 || code.isAtEnd then
        (code.isBlank, code.shown ++ line.ending) :: indentedLines draft more
      else []

/-- Reads indented code. Blank lines at its end do not belong to it. Tells how many further
    lines were read. -/
def readIndented (draft : Draft) (first : LineRest) (ending : List Char)
    (more : List SourceLine) : Draft × Nat :=
  let further := indentedLines draft more
  let kept := (further.reverse.dropWhile (·.1)).reverse
  let text := first.shown ++ ending ++ kept.flatMap (·.2)
  ({ draft.add (.code none text) with blankBefore := (further.getLast?.map (·.1)).getD false },
    further.length)

/-- The lines of fenced code and their number, with the line of the closing fence. -/
private def fencedLines (draft : Draft) (fence : Fence) (indent : Nat) :
    List SourceLine → List Char × Nat
  | [] => ([], 0)
  | line :: more =>
    match draft.follow? line.text with
    | none => ([], 0)
    | some rest =>
      let (_, code) := rest.takeSpace indent
      let (blanks, closing) := code.takeSpace (4 - indent)
      if blanks < 4 - indent && fence.isClosedBy closing.rest then ([], 1)
      else
        let (text, count) := fencedLines draft fence indent more
        (code.shown ++ line.ending ++ text, count + 1)

/-- Reads fenced code, whose fence is set in by `indent` columns. -/
def readFenced (draft : Draft) (fence : Fence) (indent : Nat) (line : List Char)
    (more : List SourceLine) : Draft × Nat :=
  let info := (line.drop fence.count).dropWhile isInlineBlank
  let info := (info.reverse.dropWhile isLineBlank).reverse
  let (text, count) := fencedLines draft fence indent more
  (draft.add (.code (some (unescape info)) text), count)

/-- The further lines of a block of HTML, and their number. `previous` is the line before. -/
private def htmlLines (draft : Draft) (stop : HtmlBlockEnd) (previous : List Char) :
    List SourceLine → List Char × Nat
  | [] => ([], 0)
  | line :: more =>
    let ended := match stop with
      | .at word => (indexOf? word previous).isSome
      | .beforeBlank => false
    match draft.follow? line.text with
    | none => ([], 0)
    | some rest =>
      let blank := match stop with
        | .at _ => false
        | .beforeBlank => rest.isBlank
      if ended || blank then ([], 0)
      else
        let (text, count) := htmlLines draft stop line.text more
        (rest.shown ++ line.ending ++ text, count + 1)

/-- Reads a block of HTML, which is kept as it is, with the columns before it. -/
def readHtml (draft : Draft) (stop : HtmlBlockEnd) (blanks : Nat) (first ending : List Char)
    (more : List SourceLine) : Draft × Nat :=
  let (text, count) := htmlLines draft stop first more
  (draft.add (.html (List.replicate blanks ' ' ++ first ++ ending ++ text)), count)

/-! ### Tables and paragraphs -/

/-- The rows of a table with `columns` columns. -/
private def tableRows (draft : Draft) (columns : Nat) : List SourceLine → List (List (List Char))
  | [] => []
  | line :: more =>
    match draft.follow? line.text with
    | none => []
    | some rest =>
      let text := rest.skipSpace
      if interrupts true true text more || (cells text).isEmpty then []
      else rowOf columns text :: tableRows draft columns more

/-- Reads a table, if the line is its row of heads. -/
def readTable? (draft : Draft) (first : List Char) : List SourceLine → Option (Draft × Nat)
  | [] => none
  | line :: more => do
    let columns := columnCount first
    let alignments ← (draft.follow? line.text).bind alignments?
    if columns ≠ alignments.length then none
    else
      let rows := tableRows draft columns more
      some (draft.add (.table alignments (rowOf columns first) rows), rows.length + 1)

/-- The further lines of a paragraph, their number, and the level of the heading that the
    paragraph is if its last line underlines it. -/
private def paragraphLines (draft : Draft) : List SourceLine → List (List Char) × Option Nat
  | [] => ([], none)
  | line :: more =>
    let (count, rest) := draft.follow line.text
    let inside := count = draft.frames.length
    let (blanks, start) := rest.takeSpace 4
    let level := if blanks < 4 && inside then underlineLevel? start.rest else none
    if level.isSome then ([], level)
    else if blanks < 4 && interrupts inside false start.rest more then ([], none)
    else if rest.skipSpace.isEmpty then ([], none)
    else
      let (lines, level) := paragraphLines draft more
      (rest.rest :: lines, level)

/-- The text of lines, with line feeds between them. -/
private def joinLines (lines : List (List Char)) : List Char :=
  ['\n'].intercalate lines

/-- The content of a block without the blanks at its end. -/
private def trimContent (text : List Char) : List Char :=
  (text.reverse.dropWhile isInlineBlank).reverse

/-- Reads a paragraph without definitions, a heading with a line under it, or a table. -/
def readText (draft : Draft) (first : List Char) (more : List SourceLine) : Draft × Nat :=
  match readTable? draft first more with
  | some (done, count) => ({ done with task := none }, count)
  | none =>
    let (lines, level) := paragraphLines draft more
    let content := trimContent (joinLines (first :: lines))
    let taken := { draft with task := none }
    match level with
    | some level => (taken.add (.heading level draft.task content), lines.length + 1)
    | none => (taken.add (.paragraph draft.task content), lines.length)

/-- Reads link definitions and the paragraph after them, of which there may be none. -/
def readParagraph (draft : Draft) (first : List Char) (more : List SourceLine) : Draft × Nat :=
  let (lines, _) := paragraphLines draft more
  match definition? (joinLines (first :: lines)) with
  | none => readText draft first more
  | some (label, target, rest) =>
    let defined := draft.define (labelKey label) target
    let left := if rest.isEmpty then 0 else rest.count '\n' + 1
    let used := lines.length - left
    match _next : more.drop used with
    | [] => (defined, used)
    | line :: others =>
      if left = 0 then (defined, used)
      else
        let (done, count) := readParagraph defined (draft.follow line.text).2.skipSpace others
        (done, used + 1 + count)
termination_by more.length
decreasing_by
  have := congrArg List.length _next
  simp only [List.length_drop, List.length_cons] at this
  omega

/-! ### Blocks -/

/-- The content of a heading without the number signs that close it. -/
private def headingContent (text : List Char) : List Char :=
  let reversed := text.reverse.dropWhile (· = ' ')
  match reversed.dropWhile (· = '#') with
  | [] => []
  | ' ' :: rest => (rest.dropWhile (· = ' ')).reverse
  | _ => reversed.reverse

/-- Opens the blocks whose markers a line holds, of which there are at most `room`. Gives
    nothing for the line if it holds an item's marker and nothing else. -/
def openFrames (draft : Draft) : (room : Nat) → LineRest → Draft × Option LineRest
  | 0, line => (draft, some line)
  | room + 1, line =>
    let (indent, start) := line.takeSpace 4
    if 4 ≤ indent then (draft, some line)
    else
      match footnoteLabel? start.rest with
      | some (label, rest) =>
        let rest := rest.dropWhile isInlineBlank
        openFrames (draft.openFootnote label (labelKey label)) room (.ofText rest)
      | none =>
        match start.listMarker? indent with
        | some (marker, rest) =>
          let opened := (draft.continueList marker).push (.item marker.indent [])
          if rest.isBlank then ({ opened with emptyItem := true }, none)
          else
            match rest.taskMarker? with
            | some (done, rest) => openFrames { opened with task := some done } room rest
            | none => openFrames { opened with task := none } room rest
        | none =>
          match start.rest with
          | '>' :: _ =>
            openFrames (draft.finishList.push (.quote [])) room ((start.after 1).takeSpace 1).2
          | _ => (draft, some line)

/-- Notes a blank line. Within a quote it says nothing. -/
private def noteBlank (draft : Draft) : Draft :=
  match draft.frames with
  | .quote _ :: _ => draft
  | _ => { draft with blankBefore := true }

/-- Reads the block that starts with what is left of a line. -/
private def readLeaf (draft : Draft) (line : LineRest) (ending : List Char)
    (more : List SourceLine) : Draft × Nat :=
  let (indent, start) := line.takeSpace 4
  if 4 ≤ indent then readIndented draft start ending more
  else
    let text := start.rest
    match htmlBlockEnd? text with
    | some stop => readHtml draft stop (max line.pending indent) text ending more
    | none =>
      if isThematicBreak text then (draft.add .rule, 0)
      else
        match headingLevel? text with
        | some level =>
          let content := headingContent ((text.drop level).dropWhile isInlineBlank)
          (draft.add (.heading level none content), 0)
        | none =>
          match fence? text with
          | some fence => readFenced draft fence indent text more
          | none => readParagraph draft text more

/-- Reads the block that starts with a line. Tells how many further lines were read. -/
def readBlock (draft : Draft) (line : SourceLine) (more : List SourceLine) : Draft × Nat :=
  let (count, rest) := draft.follow line.text
  let draft := draft.closeMany (draft.frames.length - count)
  match openFrames draft (line.text.length + 1) rest with
  | (draft, none) => (draft, 0)
  | (draft, some rest) =>
    if rest.isBlank then (noteBlank draft, 0)
    else readLeaf draft.finishList rest line.ending more

/-- Reads the blocks of the lines of a text. -/
def readBlocks (draft : Draft) : List SourceLine → Draft
  | [] => draft
  | line :: more =>
    let (draft, count) := readBlock draft line more
    readBlocks draft (more.drop count)
termination_by lines => lines.length

/-- The blocks of a text and what it defines. -/
def blocksOf (text : List Char) : List Block × Definitions :=
  let draft := readBlocks .empty (sourceLines text)
  let closed := draft.closeMany draft.frames.length
  (closed.blocks.reverse, closed.definitions)

end PageLoom.Markdown
