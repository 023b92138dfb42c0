import PageLoom.Markdown.NamedCharacters
import PageLoom.Text.Punctuation

namespace PageLoom.Markdown

/-!
# Character references and escapes

* `characterReference?` — a character written as `&name;`, `&#65;` or `&#x41;`;
* `unescape` — a text with its references and backslash escapes resolved.
-/

/-- The value of a digit in base ten or sixteen. -/
private def digitOf? (base : Nat) (c : Char) : Option Nat :=
  let value :=
    if c.isDigit then c.toNat - '0'.toNat
    else if 'a' ≤ c && c ≤ 'f' then c.toNat - 'a'.toNat + 10
    else if 'A' ≤ c && c ≤ 'F' then c.toNat - 'A'.toNat + 10
    else base
  if value < base then some value else none

/-- The character with a code point. The code point zero, and those that belong to no
    character, give the replacement character. -/
private def characterOf (code : Nat) : Char :=
  if code ≠ 0 && code.isValidChar then Char.ofNat code else '\uFFFD'

/-- Reads digits, at most `limit` of them, and the semicolon after them. -/
private def numericReference? (base limit : Nat) (text : List Char) :
    Option (List Char × List Char) :=
  let digits := (text.takeWhile fun c => (digitOf? base c).isSome).take limit
  match text.drop digits.length with
  | ';' :: rest =>
    if digits.isEmpty then none
    else
      let code := digits.foldl (fun value c => value * base + (digitOf? base c).getD 0) 0
      some ([characterOf code], rest)
  | _ => none

/-- Reads what follows the ampersand of a character reference. Gives the characters that it
    stands for and the rest of the text. -/
def characterReference? : List Char → Option (List Char × List Char)
  | '#' :: 'x' :: text | '#' :: 'X' :: text => numericReference? 16 6 text
  | '#' :: text => numericReference? 10 7 text
  | text =>
    let name := text.takeWhile Char.isAlphanum
    match text.drop name.length with
    | ';' :: rest => (namedCharacters.lookup (String.ofList name)).map (·, rest)
    | _ => none

/-- The text with its character references and backslash escapes resolved, without carriage
    returns. -/
def unescape : List Char → List Char
  | [] => []
  | '\\' :: c :: rest =>
    if isAsciiPunctuation c then c :: unescape rest else '\\' :: unescape (c :: rest)
  | '&' :: rest =>
    match characterReference? rest with
    | some (characters, after) =>
      characters ++ unescape (rest.drop (rest.length - after.length))
    | none => '&' :: unescape rest
  | c :: rest => if c = '\r' then unescape rest else c :: unescape rest
termination_by text => text.length
decreasing_by all_goals simp only [List.length_cons, List.length_drop]; omega

end PageLoom.Markdown
