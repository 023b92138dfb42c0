import PageLoom.Markdown.Source

namespace PageLoom.Markdown

/-!
# Markers

What starts a block is read off the beginning of a line.

* `isThematicBreak`, `headingLevel?`, `underlineLevel?` — breaks and headings;
* `Fence`, `fence?`, `Fence.isClosedBy` — fences around code;
* `ListMarker`, `LineRest.listMarker?`, `LineRest.taskMarker?` — the items of lists.
-/

/-- The number of times that `text` starts with `c`. -/
def runLength (c : Char) (text : List Char) : Nat :=
  (text.takeWhile (· = c)).length

/-- Three or more equal stars, hyphens or underscores, and blanks. -/
def isThematicBreak : List Char → Bool
  | [] => false
  | c :: rest =>
    (c = '*' || c = '-' || c = '_') && rest.all (fun d => d = c || isSpaceOrTab d) &&
      2 ≤ rest.count c

/-- The level of a heading that starts with number signs. -/
def headingLevel? (text : List Char) : Option Nat :=
  let level := runLength '#' text
  if 1 ≤ level && level ≤ 6 && (text.drop level).head?.all isInlineBlank then some level else none

/-- The level that a line gives to the heading above it. -/
def underlineLevel? (text : List Char) : Option Nat :=
  match text with
  | '=' :: _ => if isBlankLine (text.dropWhile (· = '=')) then some 1 else none
  | '-' :: _ => if isBlankLine (text.dropWhile (· = '-')) then some 2 else none
  | _ => none

/-- A fence: the character that it is made of and their number. -/
structure Fence where
  symbol : Char
  count : Nat
  deriving DecidableEq, Repr

/-- The fence at the start of a line. What follows backticks holds no backtick. -/
def fence? (text : List Char) : Option Fence :=
  match text with
  | [] => none
  | c :: _ =>
    let count := runLength c text
    if c = '\x60' then
      if 3 ≤ count && !(text.drop count).contains c then some ⟨c, count⟩ else none
    else if c = '~' && 3 ≤ count then some ⟨c, count⟩
    else none

/-- The line closes the fence: it holds at least as many of its characters, and spaces. -/
def Fence.isClosedBy (fence : Fence) (text : List Char) : Bool :=
  let count := runLength fence.symbol text
  fence.count ≤ count && (text.drop count).all (· = ' ')

/-- The marker of a list item: the character that tells lists apart, the number of an ordered
    item, and the columns that the content of the item is set in by. -/
structure ListMarker where
  symbol : Char
  number : Nat
  indent : Nat
  deriving DecidableEq, Repr

/-- The character marks the items of lists without numbers. -/
def isBullet (c : Char) : Bool :=
  c = '-' || c = '+' || c = '*'

/-- The digits of the number that an ordered item starts with, at most nine, and the character
    after it. -/
def itemNumber? (text : List Char) : Option (List Char × Char) :=
  let digits := text.takeWhile Char.isDigit
  match (text.drop digits.length).head? with
  | some c =>
    if 1 ≤ digits.length && digits.length ≤ 9 && (c = '.' || c = ')') then some (digits, c)
    else none
  | none => none

/-- The number that digits stand for. -/
def numberOf (digits : List Char) : Nat :=
  digits.foldl (fun value c => value * 10 + (c.toNat - '0'.toNat)) 0

namespace LineRest

/-- Ends a marker of `width` columns with the blanks after it. One blank belongs to the
    marker; up to three more set the content in further. -/
private def endMarker? (symbol : Char) (number width : Nat) (line : LineRest) :
    Option (ListMarker × LineRest) :=
  let (blanks, after) := line.takeSpace 1
  if blanks = 0 && !after.isAtEnd then none
  else if after.isBlank then some (⟨symbol, number, width + 1⟩, after)
  else
    let (more, further) := after.takeSpace 4
    if more < 4 then some (⟨symbol, number, width + 1 + more⟩, further)
    else some (⟨symbol, number, width + 1⟩, after)

/-- The marker of a list item after `indent` columns. -/
def listMarker? (indent : Nat) (line : LineRest) : Option (ListMarker × LineRest) :=
  match line.rest with
  | [] => none
  | c :: _ =>
    if isBullet c then
      if isThematicBreak line.rest then none
      else endMarker? c 0 (indent + 1) (line.after 1)
    else
      match itemNumber? line.rest with
      | some (digits, symbol) =>
        let width := digits.length + 1
        endMarker? symbol (numberOf digits) (indent + width) (line.after width)
      | none => none

/-- The task marker at the start of an item, `[ ]` or `[x]`, with a blank after it. Tells
    whether the task is done. -/
def taskMarker? (line : LineRest) : Option (Bool × LineRest) :=
  let (_, start) := line.takeSpace 3
  match start.rest with
  | '[' :: c :: ']' :: d :: _ =>
    if !isInlineBlank d then none
    else if isInlineBlank c then some (false, start.after 3)
    else if c = 'x' || c = 'X' then some (true, start.after 3)
    else none
  | _ => none

end LineRest

end PageLoom.Markdown
