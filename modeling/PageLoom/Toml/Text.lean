import PageLoom.Text.HexDigit
import PageLoom.Toml.Lexical

namespace PageLoom

/-!
# TOML strings

There are basic strings with escapes and literal strings without, each on one line or over
many lines. A string over many lines may hold one or two of its quotes in a row, also right
before the three that end it.

* `Toml.string?` — reads a string of any kind;
* `Toml.basic?`, `Toml.literal?`, `Toml.longBasic?`, `Toml.longLiteral?` — the four kinds.
-/

namespace Toml

/-- A character that may stand in a string as it is: a tab, and all but controls. -/
def isPlain (c : Char) : Bool :=
  c = '\t' || (32 ≤ c.toNat && c.toNat ≠ 127)

/-- The character that an escape letter stands for. -/
def escapeLetter? (c : Char) : Option Char :=
  match c with
  | 'b' => some '\x08'
  | 't' => some '\t'
  | 'n' => some '\n'
  | 'f' => some '\x0c'
  | 'r' => some '\r'
  | '"' => some '"'
  | '\\' => some '\\'
  | _ => none

/-- The character with the code written by `count` hexadecimal digits. -/
def coded? (count : Nat) (text : List Char) : Option (Char × List Char) := do
  let digits := text.take count
  guard (digits.length = count)
  let code ← hexNumber? digits
  guard (code.isValidChar)
  return (Char.ofNat code, text.drop count)

/-- The character of the escape whose backslash has been read. -/
def escape? : List Char → Option (Char × List Char)
  | [] => none
  | c :: rest =>
    if c = 'u' then coded? 4 rest
    else if c = 'U' then coded? 8 rest
    else (escapeLetter? c).map fun d => (d, rest)

/-- Reads a basic string from after its quote. -/
def basic? : (fuel : Nat) → (reversed : List Char) → List Char → Option (List Char × List Char)
  | 0, _, _ => none
  | _, _, [] => none
  | fuel + 1, reversed, c :: rest =>
    if c = '"' then some (reversed.reverse, rest)
    else if c = '\\' then do
      let (c, rest) ← escape? rest
      basic? fuel (c :: reversed) rest
    else if isPlain c then basic? fuel (c :: reversed) rest
    else none

/-- Reads a literal string from after its quote. -/
def literal? (text : List Char) : Option (List Char × List Char) :=
  let content := text.takeWhile fun c => isPlain c && c ≠ '\''
  match text.drop content.length with
  | '\'' :: rest => some (content, rest)
  | _ => none

/-- The text after a line end, if the text starts with one. -/
private def afterNewline (text : List Char) : List Char :=
  (newline? text).getD text

/-- The end of a long string, at three or more of its quotes: all but three of them, of which
    there may be two, belong to the string. -/
private def longEnd (quote : Char) (reversed rest : List Char) : List Char × List Char :=
  let extra := min 2 ((rest.takeWhile (· = quote)).length - 3)
  ((List.replicate extra quote ++ reversed).reverse, rest.drop (extra + 3))

/-- The text after any blanks and line ends. -/
private def skipBlankLines : (fuel : Nat) → List Char → List Char
  | 0, text => text
  | fuel + 1, text =>
    match newline? (skipBlanks text) with
    | some rest => skipBlankLines fuel rest
    | none => skipBlanks text

/-- The text after the blanks and line ends that follow a backslash at the end of a line. -/
private def skipFold? (text : List Char) : Option (List Char) := do
  let rest ← newline? (skipBlanks text)
  return skipBlankLines (rest.length + 1) rest

/-- Reads the rest of a long basic string. -/
def longBasic? : (fuel : Nat) → (reversed : List Char) → List Char →
    Option (List Char × List Char)
  | 0, _, _ => none
  | _, _, [] => none
  | fuel + 1, reversed, c :: rest =>
    if ['"', '"', '"'].isPrefixOf (c :: rest) then some (longEnd '"' reversed (c :: rest))
    else if c = '\\' then
      match escape? rest with
      | some (c, rest) => longBasic? fuel (c :: reversed) rest
      | none => do longBasic? fuel reversed (← skipFold? rest)
    else if isPlain c then longBasic? fuel (c :: reversed) rest
    else do longBasic? fuel ('\n' :: reversed) (← newline? (c :: rest))

/-- Reads the rest of a long literal string. -/
def longLiteral? : (fuel : Nat) → (reversed : List Char) → List Char →
    Option (List Char × List Char)
  | 0, _, _ => none
  | _, _, [] => none
  | fuel + 1, reversed, c :: rest =>
    if ['\'', '\'', '\''].isPrefixOf (c :: rest) then some (longEnd '\'' reversed (c :: rest))
    else if isPlain c then longLiteral? fuel (c :: reversed) rest
    else do longLiteral? fuel ('\n' :: reversed) (← newline? (c :: rest))

/-- Reads a string on one line, basic or literal. -/
def shortString? : List Char → Option (List Char × List Char)
  | '"' :: rest => basic? (rest.length + 1) [] rest
  | '\'' :: rest => literal? rest
  | _ => none

/-- Reads a string of any kind. -/
def string? (text : List Char) : Option (List Char × List Char) :=
  match text with
  | '"' :: '"' :: '"' :: rest => longBasic? (rest.length + 1) [] (afterNewline rest)
  | '\'' :: '\'' :: '\'' :: rest => longLiteral? (rest.length + 1) [] (afterNewline rest)
  | text => shortString? text

end Toml

end PageLoom
