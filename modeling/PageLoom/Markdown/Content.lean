import PageLoom.Markdown.Autolink
import PageLoom.Markdown.Emphasis
import PageLoom.Markdown.Reference
import PageLoom.Markdown.Tag
import PageLoom.Text.Blank

namespace PageLoom.Markdown

/-!
# Reading inline content

The content of a block is read from left to right. Code, HTML and links written out come first,
brackets are matched as they close, and emphasis is looked for within a link's text and in what
is left at the end.

* `runAt` — what a run of stars, underscores or tildes may do at its place;
* `codeSpan?`, `inlineTarget?` — code, and the target of a link behind its text;
* `Content` — how far the reading is, and `closeBracket`, what a closing bracket does to it;
* `inlinesOf` — the inline content of a text.
-/

/-! ### Runs -/

/-- What a run may do between the character before it, if there is one on its line, and the
    character after it. A run next to a blank does not face it. Underscores, and a single
    tilde, do nothing within words. -/
def runAt (behind : Option Char) (symbol : Char) (length : Nat) (ahead : Option Char) :
    DelimiterRun :=
  let inWords := symbol = '*' || (symbol = '~' && 1 < length)
  let opens := match ahead, behind with
    | none, _ => false
    | some next, none => !isBlank next
    | some next, some previous =>
      !isBlank next &&
        (inWords && (symbol = '~' || !isPunctuation next) || isBlank previous ||
          isPunctuation previous)
  let closes := match behind, ahead with
    | none, _ => false
    | some previous, none => !isBlank previous
    | some previous, some next =>
      !isBlank previous &&
        (inWords && !isPunctuation previous || isBlank next || isPunctuation next)
  { symbol, length, opens, closes }

/-! ### Code -/

/-- The text before the next run of exactly `count` backticks, given in reverse so far, and the
    text after that run. -/
private def beforeBackticks (count : Nat) (reversed : List Char) :
    (room : Nat) → List Char → Option (List Char × List Char)
  | 0, _ => none
  | _, [] => none
  | room + 1, c :: rest =>
    if c = '\x60' then
      let run := (c :: rest).takeWhile (· = '\x60')
      let after := (c :: rest).drop run.length
      if run.length = count then some (reversed.reverse, after)
      else beforeBackticks count (run ++ reversed) room after
    else beforeBackticks count (c :: reversed) room rest

/-- The content of a code span: ends of lines are spaces, and one space is taken off either
    end unless there is nothing else. -/
private def codeContent (text : List Char) : List Char :=
  let spaced := text.map fun c => if c = '\n' then ' ' else c
  if spaced.all (· = ' ') then spaced
  else if spaced.head? = some ' ' && spaced.getLast? = some ' ' then (spaced.drop 1).dropLast
  else spaced

/-- Reads a code span after its `count` opening backticks. -/
def codeSpan? (count : Nat) (text : List Char) : Option (List Char × List Char) :=
  (beforeBackticks count [] (text.length + 1) text).map fun (code, rest) => (codeContent code, rest)

/-! ### Targets -/

/-- A title over several lines, each without its leading blanks. -/
private def trimTitle (blanks : Bool) : List Char → List Char
  | [] => []
  | c :: rest =>
    if c = '\n' then '\n' :: trimTitle true rest
    else if blanks && isSpaceOrTab c then trimTitle true rest
    else c :: trimTitle false rest

/-- The nesting of parentheses in a destination. -/
def parenthesisLimit : Nat := 32

/-- Reads the target of a link in parentheses, right behind the link's text. -/
def inlineTarget? : List Char → Option (LinkTarget × List Char)
  | '(' :: text => do
    let (written, rest) ← destination? parenthesisLimit (skipBlanksAndLine text)
    let rest := skipBlanksAndLine rest
    let (title, rest) := match title? rest with
      | some (title, rest) => (unescape (trimTitle false title), skipBlanksAndLine rest)
      | none => ([], rest)
    match rest with
    | ')' :: after => some (⟨unescape written, title⟩, after)
    | _ => none
  | _ => none

/-- A label in brackets, as a reader of references sees it. -/
inductive BracketLabel where
  | link (label : List Char)
  | footnote (label : List Char)

/-- Reads a label after its opening bracket. A label with a caret names a footnote. -/
def bracketLabel? (text : List Char) : Option (BracketLabel × List Char) :=
  let plain := (label? true text).map fun (label, rest) => (BracketLabel.link label, rest)
  match text with
  | '^' :: c :: rest =>
    if c = ']' then plain
    else
      match label? false (c :: rest) with
      | some (label, after) => some (.footnote label, after)
      | none => plain
  | _ => plain

/-! ### Brackets -/

/-- An opening bracket that waits to be closed: whether it opens an image, whether a link may
    still start there, the text after it, and the pieces before it, the last one first. -/
structure Bracket where
  image : Bool
  active : Bool
  source : List Char
  before : List Piece

/-- An opening bracket as it is written. -/
def Bracket.text (bracket : Bracket) : List Char :=
  if bracket.image then ['!', '['] else ['[']

/-- How far the reading of inline content is: the brackets that wait, the nearest one first, the
    pieces after it, the last one first, and the closing brackets of labels that were tried
    already, as the number of characters after each. -/
structure Content where
  brackets : List Bracket
  pieces : List Piece
  tried : List Nat

namespace Content

/-- Adds a piece. -/
def add (content : Content) (piece : Inline) : Content :=
  { content with pieces := .node piece :: content.pieces }

/-- Adds text. -/
def addText (content : Content) (text : List Char) : Content :=
  content.add (.text text)

/-- Opens a bracket before `source`. -/
def openBracket (content : Content) (image : Bool) (source : List Char) : Content :=
  { content with
    brackets := ⟨image, true, source, content.pieces⟩ :: content.brackets
    pieces := [] }

/-- Takes the nearest bracket as text. -/
def dropBracket (content : Content) : Content :=
  match content.brackets with
  | [] => content
  | bracket :: outer =>
    { content with
      brackets := outer
      pieces := content.pieces ++ .node (.text bracket.text) :: bracket.before }

/-- Takes all brackets as text. -/
def dropBrackets (content : Content) : Content :=
  content.brackets.length.repeat dropBracket content

/-- Makes a link or an image of what follows the nearest bracket. No link stands in another
    one, so the brackets of links outside are given up. -/
private def link (content : Content) (target : LinkTarget) : Content :=
  match content.brackets with
  | [] => content
  | bracket :: outer =>
    let text := emphasize content.pieces.reverse
    if bracket.image then
      { content with
        brackets := outer
        pieces := .node (.image target text) :: bracket.before }
    else
      { content with
        brackets := outer.map fun b => if b.image then b else { b with active := false }
        pieces := .node (.link target text) :: bracket.before }

/-- Makes a reference to a footnote of what follows the nearest bracket, and gives up all
    brackets outside. -/
private def footnote (content : Content) (label : List Char) : Content :=
  match content.brackets with
  | [] => content
  | bracket :: outer =>
    let before := if bracket.image then .node (.text ['!']) :: bracket.before else bracket.before
    { content with
      brackets := outer
      pieces := .node (.footnote label) :: before }.dropBrackets

/-- The target under a label. -/
private def targetOf? (definitions : Definitions) (label : List Char) : Option LinkTarget :=
  definitions.links.lookup (labelKey label)

/-- Closes a bracket whose text is followed by no target of its own. The label is the one in
    the next brackets, or the text itself. Gives the text after what was read. -/
private def closeReference (definitions : Definitions) (content : Content) (bracket : Bracket)
    (rest : List Char) : Content × List Char :=
  let plain := (content.dropBracket.addText [']'], rest)
  let shortcut (after : List Char) : Content × List Char :=
    if content.tried.contains rest.length then plain
    else
      match bracketLabel? bracket.source with
      | some (label, behind) =>
        if behind.length ≠ rest.length then plain
        else
          match label with
          | .footnote label =>
            if definitions.footnotes.contains (labelKey label) then (content.footnote label, rest)
            else plain
          | .link label =>
            match targetOf? definitions label with
            | some target => (content.link target, after)
            | none => plain
      | none => plain
  match rest with
  | '[' :: ']' :: after => shortcut after
  | '[' :: next =>
    match bracketLabel? next with
    | some (.link label, after) =>
      let content := { content with tried := after.length :: content.tried }
      match targetOf? definitions label with
      | some target => (content.link target, after)
      | none => (content.dropBracket.addText [']'], rest)
    | _ => shortcut rest
  | _ => shortcut rest

/-- Closes the nearest bracket before `rest`. Gives the text after what was read. -/
def closeBracket (definitions : Definitions) (content : Content) (rest : List Char) :
    Content × List Char :=
  match content.brackets with
  | [] => (content.addText [']'], rest)
  | bracket :: _ =>
    if !bracket.active then (content.dropBracket.addText [']'], rest)
    else
      match inlineTarget? rest with
      | some (target, after) => (content.link target, after)
      | none => closeReference definitions content bracket rest

/-- Reads what starts with an angle bracket before `rest`, if that is more than text. -/
def angle? (content : Content) (rest : List Char) : Option (Content × List Char) :=
  match address? rest with
  | some (address, after) => some (content.add (.link ⟨address, []⟩ [.text address]), after)
  | none =>
    match mailAddress? rest with
    | some (address, after) => some (content.add (.mail address), after)
    | none =>
      if rest.head? = some '\\' then none
      else
        (afterInlineHtml? rest).map fun after =>
          (content.add (.html ('<' :: rest.take (rest.length - after.length))), after)

/-- One character that means more than itself, if it does at its place: the content after it,
    and the text after what was read. -/
def step? (definitions : Definitions) (behind : Option Char) (content : Content) (c : Char)
    (rest : List Char) : Option (Content × List Char) :=
  match c with
  | '\\' =>
    match rest with
    | '\n' :: after => some (content.add .hardBreak, after.dropWhile isSpaceOrTab)
    | d :: after => if isAsciiPunctuation d then some (content.addText [d], after) else none
    | [] => none
  | '\n' => some (content.add .softBreak, rest.dropWhile isSpaceOrTab)
  | '&' => (characterReference? rest).map fun (text, after) => (content.addText text, after)
  | '<' => content.angle? rest
  | '[' => some (content.openBracket false rest, rest)
  | '!' =>
    match rest with
    | '[' :: after => some (content.openBracket true after, after)
    | _ => none
  | ']' => some (content.closeBracket definitions rest)
  | '\x60' =>
    let more := rest.takeWhile (· = c)
    let after := rest.drop more.length
    match codeSpan? (more.length + 1) after with
    | some (code, after) => some (content.add (.code code), after)
    | none => some (content.addText (c :: more), after)
  | _ =>
    if c = '*' || c = '_' || c = '~' then
      let more := rest.takeWhile (· = c)
      let after := rest.drop more.length
      let run := runAt behind c (more.length + 1) after.head?
      if (run.opens || run.closes) && (c ≠ '~' || run.length ≤ 2) then
        some ({ content with pieces := .run run :: content.pieces }, after)
      else some (content.addText (c :: more), after)
    else if isInlineBlank c then
      let more := rest.takeWhile isInlineBlank
      match rest.drop more.length with
      | '\n' :: after =>
        some (content.add (if more.isEmpty then .softBreak else .hardBreak),
          after.dropWhile isSpaceOrTab)
      | after => some (content.addText (c :: more), after)
    else none

/-- The character before the text after what was read, unless a line starts there. -/
private def behindOf (read : List Char) : Option Char :=
  match (read.reverse.dropWhile isSpaceOrTab).head? with
  | some '\n' => none
  | _ => read.getLast?

/-- Reads a text. `behind` is the character before it on its line. -/
def read (definitions : Definitions) (content : Content) (behind : Option Char) :
    List Char → Content
  | [] => content
  | c :: rest =>
    match content.step? definitions behind c rest with
    | none => (content.addText [c]).read definitions (some c) rest
    | some (next, after) =>
      let count := rest.length - after.length
      next.read definitions (behindOf (c :: rest.take count)) (rest.drop count)
termination_by text => text.length

end Content

/-- The inline content of a text. -/
def inlinesOf (definitions : Definitions) (text : List Char) : List Inline :=
  emphasize ((Content.read definitions ⟨[], [], []⟩ none text).dropBrackets.pieces.reverse)

end PageLoom.Markdown
