import PageLoom.Data.Datum
import PageLoom.Text.HexDigit
import PageLoom.Text.Offset

namespace PageLoom

/-!
# JSON strings

A string is read from after its opening quote to its closing quote. An escape for half of a
surrogate pair spoils the content of a string but not its end, so such a string can still be
passed over.

* `Json.StringEnd` — how reading a string ends;
* `Json.string` — reads a string.
-/

namespace Json

/-- How reading a string ends: at its closing quote, with the content unless that is spoilt,
    or with a fault, which can be another one for those who only pass over the string. -/
inductive StringEnd where
  | closed (content : Option String) (rest : List Char)
  | faulty (read skipped : Fault)

/-- The character that an escape letter stands for. -/
def escapeLetter? (c : Char) : Option Char :=
  match c with
  | '"' => some '"'
  | '\\' => some '\\'
  | '/' => some '/'
  | 'b' => some '\x08'
  | 'f' => some '\x0c'
  | 'n' => some '\n'
  | 'r' => some '\r'
  | 't' => some '\t'
  | _ => none

/-- What has been read of a string: its characters in reverse, a first half of a surrogate
    pair that waits for the second, and whether the content is spoilt. -/
structure Content where
  reversed : List Char
  half : Option Nat
  spoilt : Bool

namespace Content

/-- The content before the first character. -/
def none : Content :=
  ⟨[], Option.none, false⟩

/-- The content with one more character. -/
def push (content : Content) (c : Char) : Content :=
  { reversed := c :: content.reversed, half := Option.none
    spoilt := content.spoilt || content.half.isSome }

/-- The content with one more code unit of UTF-16. -/
def pushUnit (content : Content) (unit : Nat) : Content :=
  if 0xDC00 ≤ unit ∧ unit ≤ 0xDFFF then
    match content.half with
    | some high =>
      let code := 0x10000 + (high - 0xD800) * 0x400 + (unit - 0xDC00)
      { content with reversed := Char.ofNat code :: content.reversed, half := Option.none }
    | Option.none => { content with spoilt := true }
  else if 0xD800 ≤ unit ∧ unit ≤ 0xDBFF then
    { content with half := some unit, spoilt := content.spoilt || content.half.isSome }
  else content.push (Char.ofNat unit)

/-- The end of a string at its closing quote. -/
def close (content : Content) (rest : List Char) : StringEnd :=
  if content.spoilt || content.half.isSome then .closed Option.none rest
  else .closed (some (String.ofList content.reversed.reverse)) rest

/-- The end of a string at a fault. -/
def fail (content : Content) (fault : Fault) : StringEnd :=
  .faulty (if content.spoilt then .syntaxError else fault) fault

end Content

/-- The code unit written by the four characters after `\u`. -/
def unit? (text : List Char) : Except Fault Nat :=
  if byteLength (text.take 4) < 4 then .error .endOfText
  else
    match hexNumber? (text.take 4) with
    | some unit => .ok unit
    | none => .error .syntaxError

/-- Reads a string from after its opening quote. -/
def string (content : Content) : List Char → StringEnd
  | [] => content.fail .endOfText
  | c :: rest =>
    if c = '"' then content.close rest
    else if c = '\\' then
      match rest with
      | [] => content.fail .endOfText
      | 'u' :: a :: b :: c :: d :: rest =>
        match unit? [a, b, c, d] with
        | .ok unit => string (content.pushUnit unit) rest
        | .error fault => content.fail fault
      | 'u' :: rest =>
        match unit? rest with
        | .ok _ => content.fail .endOfText
        | .error fault => content.fail fault
      | letter :: rest =>
        match escapeLetter? letter with
        | some c => string (content.push c) rest
        | none => content.fail .syntaxError
    else if c.toNat < 32 then content.fail .syntaxError
    else string (content.push c) rest

end Json

end PageLoom
