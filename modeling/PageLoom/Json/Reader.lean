import PageLoom.Json.Number
import PageLoom.Json.Text

namespace PageLoom

/-!
# Reading JSON

* `Json.value` — reads one value into a tree;
* `Json.document` — reads a whole text: the tree, and the fault after it.
-/

namespace Json

/-- The text without the blanks in front of it. -/
def skipBlanks (text : List Char) : List Char :=
  text.dropWhile fun c => c = ' ' || c = '\n' || c = '\t' || c = '\r'

/-- A tree that cannot be read or passed over. -/
private def stuck (fault : Fault) : Datum :=
  .broken fault (some fault)

/-- Reads the rest of a word whose first letter has been seen. -/
def keyword (datum : Datum) : (word text : List Char) → Datum × Option (List Char)
  | [], text => (datum, some text)
  | _ :: _, [] => (stuck .endOfText, none)
  | expected :: word, c :: text =>
    if c = expected then keyword datum word text else (stuck .syntaxError, none)

mutual

/-- Reads a value. What follows it is missing if the text cannot be read further. -/
def value : (fuel : Nat) → List Char → Datum × Option (List Char)
  | 0, _ => (stuck .endOfText, none)
  | fuel + 1, text =>
    match skipBlanks text with
    | [] => (stuck .endOfText, none)
    | c :: rest =>
      if c = '"' then
        match string .none rest with
        | .closed (some content) rest => (.text content, some rest)
        | .closed none rest => (.broken .syntaxError none, some rest)
        | .faulty read skipped => (.broken read (some skipped), none)
      else if c = '[' then
        let (items, fault, rest) := items fuel (skipBlanks rest)
        (.list items fault, rest)
      else if c = '{' then
        let (members, fault, rest) := members fuel (skipBlanks rest)
        (.map members fault, rest)
      else if c = 'n' then keyword .null "ull".toList rest
      else if c = 't' then keyword (.bool true) "rue".toList rest
      else if c = 'f' then keyword (.bool false) "alse".toList rest
      else if c = '-' ∨ c.isDigit then
        match numeral (c :: rest) with
        | .ok (number, rest) => (number.datum, some rest)
        | .error (read, skipped) => (.broken read (some skipped), none)
      else (stuck .syntaxError, none)

/-- Reads the items of a list, from after its bracket. -/
def items : (fuel : Nat) → List Char → List Datum × Option Fault × Option (List Char)
  | 0, _ => ([], some .endOfText, none)
  | fuel + 1, text =>
    match text with
    | [] => ([], some .endOfText, none)
    | c :: rest => if c = ']' then ([], none, some rest) else moreItems fuel text

/-- Reads an item and those after it. -/
def moreItems : (fuel : Nat) → List Char → List Datum × Option Fault × Option (List Char)
  | 0, _ => ([], some .endOfText, none)
  | fuel + 1, text =>
    match value fuel text with
    | (item, none) => ([item], none, none)
    | (item, some rest) =>
      match skipBlanks rest with
      | [] => ([item], some .endOfText, none)
      | c :: rest =>
        if c = ']' then ([item], none, some rest)
        else if c = ',' then
          let (items, fault, rest) := moreItems fuel rest
          (item :: items, fault, rest)
        else ([item], some .syntaxError, none)

/-- Reads the members of a map, from after its brace. -/
def members : (fuel : Nat) → List Char →
    List (Option String × Datum) × Option Fault × Option (List Char)
  | 0, _ => ([], some .endOfText, none)
  | fuel + 1, text =>
    match text with
    | [] => ([], some .endOfText, none)
    | c :: rest => if c = '}' then ([], none, some rest) else moreMembers fuel text

/-- Reads a member and those after it. -/
def moreMembers : (fuel : Nat) → List Char →
    List (Option String × Datum) × Option Fault × Option (List Char)
  | 0, _ => ([], some .endOfText, none)
  | fuel + 1, text =>
    match text with
    | [] => ([], some .endOfText, none)
    | c :: rest =>
      if c ≠ '"' then ([], some .syntaxError, none)
      else
        match string .none rest with
        | .faulty read skipped =>
          if read = skipped then ([], some read, none)
          else ([(none, .broken read (some skipped))], none, none)
        | .closed key rest =>
          match skipBlanks rest with
          | [] => ([(key, stuck .endOfText)], none, none)
          | c :: rest =>
            if c ≠ ':' then ([(key, stuck .syntaxError)], none, none)
            else
              match value fuel rest with
              | (datum, none) => ([(key, datum)], none, none)
              | (datum, some rest) =>
                match skipBlanks rest with
                | [] => ([(key, datum)], some .endOfText, none)
                | c :: rest =>
                  if c = '}' then ([(key, datum)], none, some rest)
                  else if c = ',' then
                    let (members, fault, rest) := moreMembers fuel (skipBlanks rest)
                    ((key, datum) :: members, fault, rest)
                  else ([(key, datum)], some .syntaxError, none)

end

/-- Reads a whole text: its tree, and the fault after the tree. -/
def document (text : List Char) : Datum × Option Fault :=
  match value (3 * text.length + 3) text with
  | (datum, none) => (datum, none)
  | (datum, some rest) =>
    (datum, if (skipBlanks rest).isEmpty then none else some .syntaxError)

end Json

end PageLoom
