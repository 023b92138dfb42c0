import PageLoom.Markdown.Block
import PageLoom.Markdown.Entity
import PageLoom.Markdown.Source
import PageLoom.Text.CaseFold

namespace PageLoom.Markdown

/-!
# Labels, destinations and definitions

* `label?` — a label in brackets, and `labelKey`, under which it is known;
* `destination?`, `title?` — the two pieces of a link target;
* `definition?` — a link definition at the start of a paragraph.
-/

/-- A blank character, which may end a line. -/
def isLineBlank (c : Char) : Bool :=
  isInlineBlank c || c = '\n' || c = '\r'

/-- The label without the blanks at its ends. -/
private def trimLabel (label : List Char) : List Char :=
  ((label.dropWhile isLineBlank).reverse.dropWhile isLineBlank).reverse

/-- Reads a label up to its closing bracket. The label so far is `reversed`; `room` more
    characters fit; `seen` tells that one of them was not a blank; `ends` counts the lines that
    ended in the blanks just read. Blanks become one space. -/
private def labelFrom (lines : Bool) (room : Nat) (reversed : List Char) (seen : Bool)
    (ends : Nat) : List Char → Option (List Char × List Char)
  | [] => none
  | c :: rest =>
    if room = 0 then none
    else if c = '[' then none
    else if c = ']' then if seen then some (trimLabel reversed.reverse, rest) else none
    else if c = '\\' then
      match rest with
      | [] => none
      | d :: rest => labelFrom lines (room - 2) (d :: c :: reversed) seen 0 rest
    else if isLineBlank c then
      let ends := if c = '\n' then ends + 1 else ends
      if (c = '\n' && !lines) || 2 ≤ ends then none
      else if reversed.head? = some ' ' then labelFrom lines (room - 1) reversed seen ends rest
      else labelFrom lines (room - 1) (' ' :: reversed) seen ends rest
    else labelFrom lines (room - 1) (c :: reversed) true 0 rest

/-- Reads a label after its opening bracket. Gives the label and the text after the closing
    bracket. A label has at most 999 characters, not only blanks, and with `lines` it may go
    over a line's end. -/
def label? (lines : Bool) (text : List Char) : Option (List Char × List Char) :=
  labelFrom lines 1000 [] false 0 text

/-- What tells labels apart: case does not. -/
def labelKey (label : List Char) : List Char :=
  foldCase label

/-! ### Destinations and titles -/

/-- Reads a destination within angle brackets. -/
private def pointedDestination? (reversed : List Char) : List Char → Option (List Char × List Char)
  | [] => none
  | '\\' :: c :: rest =>
    if isAsciiPunctuation c then pointedDestination? (c :: '\\' :: reversed) rest
    else if c = '\n' then none
    else pointedDestination? (c :: '\\' :: reversed) rest
  | c :: rest =>
    if c = '>' then some (reversed.reverse, rest)
    else if c = '\n' || c = '<' then none
    else pointedDestination? (c :: reversed) rest

/-- Reads a destination up to a blank or control character, or up to a parenthesis that closes
    none of its own. -/
private def bareDestination? (maxNest nest : Nat) (reversed : List Char) :
    List Char → Option (List Char × List Char)
  | [] => if nest = 0 then some (reversed.reverse, []) else none
  | '\\' :: c :: rest =>
    if isAsciiPunctuation c then bareDestination? maxNest nest (c :: '\\' :: reversed) rest
    else if c.toNat ≤ 0x20 then
      if nest = 0 then some (('\\' :: reversed).reverse, c :: rest) else none
    else bareDestination? maxNest nest (c :: '\\' :: reversed) rest
  | c :: rest =>
    if c.toNat ≤ 0x20 then if nest = 0 then some (reversed.reverse, c :: rest) else none
    else if c = '(' then
      if maxNest < nest then none
      else bareDestination? maxNest (nest + 1) (c :: reversed) rest
    else if c = ')' then
      if nest = 0 then some (reversed.reverse, c :: rest)
      else bareDestination? maxNest (nest - 1) (c :: reversed) rest
    else bareDestination? maxNest nest (c :: reversed) rest

/-- Reads a destination as it is written. Parentheses may stand in it if they are balanced and
    not nested deeper than one more than `maxNest`. -/
def destination? (maxNest : Nat) : List Char → Option (List Char × List Char)
  | '<' :: text => pointedDestination? [] text
  | text => bareDestination? maxNest 0 [] text

/-- Reads a title up to the character that closes it. Neither the closing nor the opening
    character may stand in it without a backslash. -/
private def titleFrom (opening closing : Char) (reversed : List Char) :
    List Char → Option (List Char × List Char)
  | [] => none
  | '\\' :: c :: rest => titleFrom opening closing (c :: '\\' :: reversed) rest
  | c :: rest =>
    if c = closing then some (reversed.reverse, rest)
    else if c = opening then none
    else titleFrom opening closing (c :: reversed) rest

/-- Reads a title as it is written. -/
def title? : List Char → Option (List Char × List Char)
  | '"' :: text => titleFrom '"' '"' [] text
  | '\'' :: text => titleFrom '\'' '\'' [] text
  | '(' :: text => titleFrom '(' ')' [] text
  | _ => none

/-- The text after blanks and at most one line's end. -/
def skipBlanksAndLine (text : List Char) : List Char :=
  match text.dropWhile isInlineBlank with
  | '\n' :: rest => rest.dropWhile isInlineBlank
  | rest => rest

/-! ### Definitions -/

/-- The text after the end of a line that holds only blanks. -/
private def afterBlankLine? (text : List Char) : Option (List Char) :=
  match text.dropWhile isInlineBlank with
  | [] => some []
  | '\n' :: rest => some rest
  | _ => none

/-- Reads a link definition at the start of a text, whose lines are joined by line feeds. Gives
    the label, the target, and the lines after the definition. A title that does not end its
    line is none, and spoils the definition if the destination stands on the same line. -/
def definition? (text : List Char) : Option (List Char × LinkTarget × List Char) := do
  let (label, afterLabel) ← match text with
    | '[' :: text => label? true text
    | _ => none
  let start ← match afterLabel with
    | ':' :: rest => some (skipBlanksAndLine rest)
    | _ => none
  let (written, afterWritten) ← destination? 1 start
  if start.length = afterWritten.length then none
  let destination := unescape written
  let untitled := (afterBlankLine? afterWritten).map fun rest =>
    (label, (⟨destination, []⟩ : LinkTarget), rest)
  let beforeTitle := skipBlanksAndLine afterWritten
  if beforeTitle.length = afterWritten.length then untitled
  else
    let titled := do
      let (title, afterTitle) ← title? beforeTitle
      let rest ← afterBlankLine? afterTitle
      return (label, (⟨destination, unescape title⟩ : LinkTarget), rest)
    titled <|> untitled

end PageLoom.Markdown
