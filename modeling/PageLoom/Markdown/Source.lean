namespace PageLoom.Markdown

/-!
# Lines of a Markdown text

Blocks are made of lines, and what belongs to a block is decided by columns: a tab reaches to
the next multiple of four columns, and only a part of it may be taken.

* `SourceLine`, `sourceLines` — the lines of a text;
* `isInlineBlank`, `isBlankLine` — blank characters within a line;
* `LineRest` — what is left of a line after markers and columns were taken off it.
-/

/-- A line and what it ends with. A carriage return before a line feed is not kept. -/
structure SourceLine where
  text : List Char
  ending : List Char
  deriving DecidableEq, Repr

/-- The line with its ending. -/
def SourceLine.full (line : SourceLine) : List Char :=
  line.text ++ line.ending

/-- The lines of a text whose current line has the characters `reversed` so far. -/
private def linesAfter (reversed : List Char) : List Char → List SourceLine
  | [] => if reversed.isEmpty then [] else [⟨reversed.reverse, []⟩]
  | '\n' :: rest => ⟨reversed.reverse, ['\n']⟩ :: linesAfter [] rest
  | '\r' :: '\n' :: rest => ⟨reversed.reverse, ['\n']⟩ :: linesAfter [] rest
  | '\r' :: rest => ⟨reversed.reverse, ['\r']⟩ :: linesAfter [] rest
  | c :: rest => linesAfter (c :: reversed) rest

/-- The lines of a text. A line ends at a line feed, a carriage return, or both. -/
def sourceLines (text : List Char) : List SourceLine :=
  linesAfter [] text

/-- A blank character that does not end a line. -/
def isInlineBlank (c : Char) : Bool :=
  c = ' ' || c = '\t' || c = '\x0b' || c = '\x0c'

/-- A space or a tab. -/
def isSpaceOrTab (c : Char) : Bool :=
  c = ' ' || c = '\t'

/-- There is nothing but blanks. -/
def isBlankLine (text : List Char) : Bool :=
  text.all isInlineBlank

/-- What is left of a line: the characters, the columns since the last tab or the start, and
    the columns that are left of a tab that was taken in part. -/
structure LineRest where
  rest : List Char
  column : Nat
  pending : Nat
  deriving DecidableEq, Repr

namespace LineRest

/-- The whole line. -/
def ofText (text : List Char) : LineRest :=
  ⟨text, 0, 0⟩

/-- Takes `wanted` columns off characters, and tells how many are lacking. -/
private def takeFrom : (wanted : Nat) → (column : Nat) → List Char → Nat × LineRest
  | 0, column, rest => (0, ⟨rest, column, 0⟩)
  | wanted + 1, column, ' ' :: rest => takeFrom wanted (column + 1) rest
  | wanted + 1, column, '\t' :: rest =>
    let width := 4 - column % 4
    if width ≤ wanted + 1 then takeFrom (wanted + 1 - width) 0 rest
    else (0, ⟨rest, 0, width - (wanted + 1)⟩)
  | wanted + 1, column, rest => (wanted + 1, ⟨rest, column, 0⟩)

/-- Takes up to `wanted` columns of blanks, and tells how many there were. -/
def takeSpace (wanted : Nat) (line : LineRest) : Nat × LineRest :=
  if wanted ≤ line.pending then (wanted, { line with pending := line.pending - wanted })
  else
    let (lacking, after) := takeFrom (wanted - line.pending) line.column line.rest
    (wanted - lacking, after)

/-- The line without all its leading blanks. -/
def skipSpace (line : LineRest) : List Char :=
  line.rest.dropWhile isSpaceOrTab

/-- Nothing is left. -/
def isAtEnd (line : LineRest) : Bool :=
  line.rest.isEmpty

/-- Nothing but blanks is left. -/
def isBlank (line : LineRest) : Bool :=
  isBlankLine line.rest

/-- The line after its first `count` characters, none of which is a tab. -/
def after (line : LineRest) (count : Nat) : LineRest :=
  { line with rest := line.rest.drop count, column := line.column + count }

/-- What is left, with spaces for the rest of a tab. -/
def shown (line : LineRest) : List Char :=
  List.replicate line.pending ' ' ++ line.rest

end LineRest

end PageLoom.Markdown
