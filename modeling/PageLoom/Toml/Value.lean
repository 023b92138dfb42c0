import PageLoom.Toml.Moment
import PageLoom.Toml.Number
import PageLoom.Toml.Table
import PageLoom.Toml.Text

namespace PageLoom

/-!
# TOML values

* `Toml.keyPath?` — reads a key, which may be dotted;
* `Toml.value?` — reads a value;
* `Toml.depthLimit` — how deeply lists and inline tables may be nested.
-/

namespace Toml

/-- The nesting of lists and inline tables, and the number of parts of a key, from which on a
    document is refused. -/
def depthLimit : Nat := 80

/-- A character of a bare key. -/
def isBareKeyChar (c : Char) : Bool :=
  c.isAlphanum || c = '-' || c = '_'

/-- Reads one part of a key. -/
def keyPart? (text : List Char) : Option (String × List Char) :=
  match text with
  | [] => none
  | c :: _ =>
    if c = '"' || c = '\'' then
      (shortString? text).map fun (content, rest) => (String.ofList content, rest)
    else
      let bare := text.takeWhile isBareKeyChar
      if bare.isEmpty then none else some (String.ofList bare, text.drop bare.length)

/-- Reads the parts of a key, with blanks around each. -/
def keyParts? : (fuel : Nat) → List Char → Option (List String × List Char)
  | 0, _ => none
  | fuel + 1, text => do
    let (part, rest) ← keyPart? (skipBlanks text)
    match skipBlanks rest with
    | '.' :: rest => do
      let (parts, rest) ← keyParts? fuel rest
      return (part :: parts, rest)
    | rest => return ([part], rest)

/-- Reads a key: the path to a table, and the key in that table. -/
def keyPath? (text : List Char) : Option (List String × String × List Char) := do
  let (parts, rest) ← keyParts? (text.length + 1) text
  guard (parts.length < depthLimit)
  let key ← parts.getLast?
  return (parts.dropLast, key, rest)

/-- The key of a date or time where it is taken for a map. -/
def momentKey : String := "$__toml_private_datetime"

/-- Reads a truth value. -/
def bool? (text : List Char) : Option (Datum × List Char) :=
  match text with
  | 't' :: 'r' :: 'u' :: 'e' :: rest => some (.bool true, rest)
  | 'f' :: 'a' :: 'l' :: 's' :: 'e' :: rest => some (.bool false, rest)
  | _ => none

/-- Reads a value that holds no other values. -/
def scalar? (text : List Char) : Option (Datum × List Char) :=
  match text with
  | [] => none
  | c :: _ =>
    if c = '"' || c = '\'' then
      (string? text).map fun (content, rest) => (.text (String.ofList content), rest)
    else if c = 't' || c = 'f' then bool? text
    else
      match moment? text with
      | some (shown, rest) => some (.map [(some momentKey, .text shown)] none, rest)
      | none => number? text

mutual

/-- Reads a value inside `depth` lists and inline tables. -/
def value? : (fuel depth : Nat) → List Char → Option (Datum × List Char)
  | 0, _, _ => none
  | fuel + 1, depth, text =>
    match text with
    | [] => none
    | c :: rest =>
      if c = '[' then do
        guard (depth + 1 < depthLimit)
        let (items, rest) ← items? fuel (depth + 1) rest
        return (.list items none, rest)
      else if c = '{' then do
        guard (depth + 1 < depthLimit)
        match skipBlanks rest with
        | '}' :: rest => return (.map [] none, rest)
        | rest =>
          let (table, rest) ← pairs? fuel (depth + 1) .empty rest
          return (table.datum, rest)
      else scalar? text

/-- Reads the items of a list up to its bracket. The last item may be followed by a comma. -/
def items? : (fuel depth : Nat) → List Char → Option (List Datum × List Char)
  | 0, _, _ => none
  | fuel + 1, depth, text => do
    match ← skipSpace? (text.length + 1) text with
    | ']' :: rest => return ([], rest)
    | text =>
      let (item, rest) ← value? fuel depth text
      match ← skipSpace? (rest.length + 1) rest with
      | ']' :: rest => return ([item], rest)
      | ',' :: rest =>
        let (items, rest) ← items? fuel depth rest
        return (item :: items, rest)
      | _ => none

/-- Reads the pairs of an inline table up to its brace, all on one line. -/
def pairs? : (fuel depth : Nat) → Table → List Char → Option (Table × List Char)
  | 0, _, _, _ => none
  | fuel + 1, depth, table, text => do
    let (path, key, rest) ← keyPath? text
    match rest with
    | '=' :: rest =>
      let (datum, rest) ← value? fuel depth (skipBlanks rest)
      let table ← table.insert? path key datum
      match skipBlanks rest with
      | '}' :: rest => return (table, rest)
      | ',' :: rest => pairs? fuel depth table rest
      | _ => none
    | _ => none

end

end Toml

end PageLoom
