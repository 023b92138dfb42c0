namespace PageLoom

/-!
# Lexical parts of TOML

* `Toml.skipBlanks`, `Toml.newline?`, `Toml.lineEnd?` — what stands between values;
* `Toml.skipSpace?` — blanks, line ends and comments inside a list;
* `Toml.digits?` — digits that may be grouped by underscores.
-/

namespace Toml

/-- Space or tab. -/
def isBlank (c : Char) : Bool :=
  c = ' ' || c = '\t'

/-- The text without the blanks in front of it. -/
def skipBlanks (text : List Char) : List Char :=
  text.dropWhile isBlank

/-- The text after the line end in front of it. -/
def newline? : List Char → Option (List Char)
  | '\n' :: rest => some rest
  | '\r' :: '\n' :: rest => some rest
  | _ => none

/-- A character that may stand in a comment: a tab, and all but controls. -/
def isCommentChar (c : Char) : Bool :=
  c = '\t' || (32 ≤ c.toNat && c.toNat ≠ 127)

/-- The text after the comment in front of it, if there is one. -/
def skipComment (text : List Char) : List Char :=
  match text with
  | '#' :: rest => rest.dropWhile isCommentChar
  | text => text

/-- The text after the end of a line, which may hold blanks and a comment. The end of the text
    ends a line too. -/
def lineEnd? (text : List Char) : Option (List Char) :=
  match skipComment (skipBlanks text) with
  | [] => some []
  | rest => newline? rest

/-- The text after any blanks, line ends and comments. A comment must end with its line. -/
def skipSpace? : (fuel : Nat) → List Char → Option (List Char)
  | 0, text => some text
  | fuel + 1, text =>
    match skipBlanks text with
    | '#' :: rest => do skipSpace? fuel (← newline? (rest.dropWhile isCommentChar))
    | '\n' :: rest => skipSpace? fuel rest
    | '\r' :: '\n' :: rest => skipSpace? fuel rest
    | rest => some rest

/-- The digits after a digit, each of which may follow an underscore, in reverse. -/
private def moreDigits? (isDigit : Char → Bool) (reversed : List Char) :
    List Char → Option (List Char × List Char)
  | [] => some (reversed, [])
  | c :: rest =>
    if isDigit c then moreDigits? isDigit (c :: reversed) rest
    else if c = '_' then
      match rest with
      | d :: rest => if isDigit d then moreDigits? isDigit (d :: reversed) rest else none
      | [] => none
    else some (reversed, c :: rest)

/-- Digits, at least one, that may be grouped by underscores between them. -/
def digits? (isDigit : Char → Bool) : List Char → Option (List Char × List Char)
  | [] => none
  | c :: rest =>
    if isDigit c then
      (moreDigits? isDigit [c] rest).map fun (reversed, rest) => (reversed.reverse, rest)
    else none

end Toml

end PageLoom
