import PageLoom.Text.Blank

namespace PageLoom.Style

/-!
# The words of a stylesheet

A stylesheet is a row of tokens: names, strings, numbers, single marks, and the blanks that
separate them. Comments separate tokens and are no tokens themselves.

* `Position`, `Placed` — where a token begins;
* `Token` — a token, and `Token.label`, what an error message calls it;
* `tokenize` — the tokens of a text.
-/

/-! ### Positions -/

/-- A place in a text: lines are counted from zero, columns from one in units of UTF-16. -/
structure Position where
  line : Nat
  column : Nat
  deriving DecidableEq, Repr

namespace Position

/-- The place of the first character. -/
def start : Position := ⟨0, 1⟩

/-- The place after some text. A line ends with a line feed, a form feed, a carriage return,
    or a carriage return and a line feed together. -/
def after (place : Position) : List Char → Position
  | [] => place
  | '\r' :: '\n' :: rest => after ⟨place.line + 1, 1⟩ rest
  | c :: rest =>
    if c = '\n' || c = '\r' || c = '\x0c' then after ⟨place.line + 1, 1⟩ rest
    else after ⟨place.line, place.column + if c.toNat < 0x10000 then 1 else 2⟩ rest

end Position

/-! ### Tokens -/

/-- A number as it is written, without zeros that say nothing. -/
structure Numeral where
  signed : Bool
  negative : Bool
  whole : List Char
  fraction : List Char
  deriving DecidableEq, Repr

namespace Numeral

/-- The number is zero. -/
def isZero (n : Numeral) : Bool :=
  n.whole.isEmpty && n.fraction.isEmpty

/-- The shortest text of a number: a zero before the point is left out. -/
def text (n : Numeral) : String :=
  if n.isZero then "0"
  else
    let size := if n.fraction.isEmpty then n.whole else n.whole ++ '.' :: n.fraction
    String.ofList (if n.negative then '-' :: size else size)

end Numeral

/-- A token. A mark is a character that stands for itself. -/
inductive Token where
  | blank
  | word (name : String)
  | call (name : String)
  | atWord (name : String)
  | hash (name : String)
  | quoted (text : String)
  | number (value : Numeral)
  | percentage (value : Numeral)
  | dimension (value : Numeral) (unit : String)
  | mark (c : Char)
  deriving DecidableEq, Repr

/-- A token with the place where it begins. -/
structure Placed where
  token : Token
  place : Position
  deriving DecidableEq, Repr

/-- What an error message calls a mark. -/
private def markLabel (c : Char) : String :=
  match c with
  | ':' => "Colon"
  | ';' => "Semicolon"
  | ',' => "Comma"
  | '{' => "CurlyBracketBlock"
  | '(' => "ParenthesisBlock"
  | '[' => "SquareBracketBlock"
  | '}' => "CloseCurlyBracket"
  | ')' => "CloseParenthesis"
  | ']' => "CloseSquareBracket"
  | c => "Delim('" ++ c.toString ++ "')"

/-- A name and the text of what it holds. -/
private def labelled (name text : String) : String :=
  name ++ "(\"" ++ text ++ "\")"

/-- What an error message calls a token. -/
def Token.label : Token → String
  | .blank => labelled "WhiteSpace" " "
  | .word name => labelled "Ident" name
  | .call name => labelled "Function" name
  | .atWord name => labelled "AtKeyword" name
  | .hash name => labelled "IDHash" name
  | .quoted text => labelled "QuotedString" text
  | .number value => labelled "Number" value.text
  | .percentage value => labelled "Percentage" value.text
  | .dimension value unit => labelled "Dimension" (value.text ++ unit)
  | .mark c => markLabel c

/-! ### Reading tokens -/

/-- A character that can begin a name. -/
def beginsName (c : Char) : Bool :=
  c.isAlpha || c = '_' || 0x80 ≤ c.toNat

/-- A character of a name. -/
def isNameChar (c : Char) : Bool :=
  beginsName c || c.isDigit || c = '-'

/-- A name begins here. -/
def startsName : List Char → Bool
  | '-' :: '-' :: _ => true
  | '-' :: c :: _ => beginsName c
  | c :: _ => beginsName c
  | [] => false

/-- A number without a sign begins here. -/
private def startsDigits : List Char → Bool
  | '.' :: c :: _ => c.isDigit
  | c :: _ => c.isDigit
  | [] => false

/-- A number begins here. -/
def startsNumber : List Char → Bool
  | '+' :: rest => startsDigits rest
  | '-' :: rest => startsDigits rest
  | text => startsDigits text

/-- The number at the start of a text and what follows it. -/
private def readNumeral (text : List Char) : Numeral × List Char :=
  let signed := text.head? = some '+' || text.head? = some '-'
  let digits := if signed then text.drop 1 else text
  let whole := (digits.takeWhile Char.isDigit).dropWhile (· = '0')
  let rest := digits.dropWhile Char.isDigit
  let (fraction, rest) :=
    match rest with
    | '.' :: c :: more =>
      if c.isDigit then ((c :: more).takeWhile Char.isDigit, (c :: more).dropWhile Char.isDigit)
      else ([], rest)
    | _ => ([], rest)
  (⟨signed, text.head? = some '-', whole, (fraction.reverse.dropWhile (· = '0')).reverse⟩, rest)

/-- The token of a number with what stands at once after it. -/
private def numberToken (value : Numeral) (rest : List Char) : Token × List Char :=
  match rest with
  | '%' :: rest => (.percentage value, rest)
  | rest =>
    if startsName rest then
      (.dimension value (String.ofList (rest.takeWhile isNameChar)), rest.dropWhile isNameChar)
    else (.number value, rest)

/-- The text of a string up to its closing quote, the end of the line or of the text. A
    backslash keeps the next character. -/
private def readQuoted (quote : Char) : List Char → List Char × List Char
  | [] => ([], [])
  | '\\' :: c :: rest =>
    let (text, rest) := readQuoted quote rest
    (c :: text, rest)
  | c :: rest =>
    if c = quote then ([], rest)
    else if c = '\n' then ([], c :: rest)
    else
      let (text, rest) := readQuoted quote rest
      (c :: text, rest)

/-- What follows a comment whose opening has been read. -/
private def afterComment : List Char → List Char
  | '*' :: '/' :: rest => rest
  | _ :: rest => afterComment rest
  | [] => []

/-- The first token of a text and what follows it. -/
private def nextToken (c : Char) (rest : List Char) : Token × List Char :=
  let text := c :: rest
  if isAsciiBlank c then (.blank, rest.dropWhile isAsciiBlank)
  else if c = '"' || c = '\'' then
    let (inner, rest) := readQuoted c rest
    (.quoted (String.ofList inner), rest)
  else if startsNumber text then
    let (value, rest) := readNumeral text
    numberToken value rest
  else if startsName text then
    let name := String.ofList (text.takeWhile isNameChar)
    match text.dropWhile isNameChar with
    | '(' :: rest => (.call name, rest)
    | rest => (.word name, rest)
  else if c = '#' && (rest.head?.map isNameChar).getD false then
    (.hash (String.ofList (rest.takeWhile isNameChar)), rest.dropWhile isNameChar)
  else if c = '@' && startsName rest then
    (.atWord (String.ofList (rest.takeWhile isNameChar)), rest.dropWhile isNameChar)
  else (.mark c, rest)

/-- Reads tokens, as many as the first argument allows. -/
private def tokensOf : Nat → Position → List Char → List Placed
  | 0, _, _ => []
  | _ + 1, _, [] => []
  | fuel + 1, place, '/' :: '*' :: rest =>
    let after := afterComment rest
    let length := rest.length + 2 - after.length
    tokensOf fuel (place.after (('/' :: '*' :: rest).take length)) after
  | fuel + 1, place, c :: rest =>
    let (token, after) := nextToken c rest
    let length := rest.length + 1 - after.length
    ⟨token, place⟩ :: tokensOf fuel (place.after ((c :: rest).take length)) after

/-- The tokens of a text. Every token takes at least one character, so there are no more
    tokens than characters. -/
def tokenize (text : String) : List Placed :=
  tokensOf text.length .start text.toList

end PageLoom.Style
