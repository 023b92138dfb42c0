import PageLoom.Data.Datum
import PageLoom.Data.Decimal
import PageLoom.Text.HexDigit
import PageLoom.Toml.Lexical

namespace PageLoom

/-!
# TOML numbers

Whole numbers fit into 64 bits with sign and may be written in base two, eight or sixteen.
Other numbers have a fraction or an exponent, or are `inf` or `nan`.

* `Toml.number?` — reads a number of any kind.
-/

namespace Toml

/-- A sign, if there is one: whether it is a minus, and what follows. -/
private def sign : List Char → Bool × List Char
  | '+' :: rest => (false, rest)
  | '-' :: rest => (true, rest)
  | rest => (false, rest)

/-- Digits of a whole number without a zero in front of others. -/
private def wholeDigits? (text : List Char) : Option (List Char × List Char) :=
  match text with
  | '0' :: rest => some (['0'], rest)
  | text => digits? Char.isDigit text

/-- The fraction of a number. -/
private def fraction? (text : List Char) : Option (List Char × List Char) :=
  match text with
  | '.' :: rest => digits? Char.isDigit rest
  | _ => none

/-- The exponent of a number. -/
private def exponent? (text : List Char) : Option (Int × List Char) :=
  match text with
  | c :: rest =>
    if c = 'e' || c = 'E' then do
      let (negative, rest) := sign rest
      let (digits, rest) ← digits? Char.isDigit rest
      let size : Int := Nat.ofDigitChars 10 digits 0
      return (if negative then -size else size, rest)
    else none
  | [] => none

/-- The number nearest to `digits · 10 ^ exponent`. -/
private def nearest (digits : Nat) (exponent : Int) : Float :=
  let places := (Nat.toDigits 10 digits).length
  if digits = 0 then 0
  else if exponent + places > 400 then 1 / 0
  else if exponent + places < -400 then 0
  else .ofScientific digits (exponent < 0) exponent.natAbs

/-- The value of a number with a fraction or an exponent. One that is too large is refused. -/
private def floatOf? (negative : Bool) (whole fraction : List Char) (exponent : Int) :
    Option Datum :=
  let value := nearest (Nat.ofDigitChars 10 (whole ++ fraction) 0) (exponent - fraction.length)
  if negative then some (.float (showFloat (-value)))
  else if value.isInf then none
  else some (.float (showFloat value))

/-- Reads a number with a fraction or an exponent. -/
private def float? (text : List Char) : Option (Datum × List Char) := do
  let (negative, rest) := sign text
  let (whole, rest) ← wholeDigits? rest
  match exponent? rest with
  | some (exponent, rest) => return (← floatOf? negative whole [] exponent, rest)
  | none =>
    let (fraction, rest) ← fraction? rest
    match exponent? rest with
    | some (exponent, rest) => return (← floatOf? negative whole fraction exponent, rest)
    | none => return (← floatOf? negative whole fraction 0, rest)

/-- Reads `inf` or `nan`. -/
private def named? (text : List Char) : Option (Datum × List Char) :=
  let (negative, rest) := sign text
  match rest with
  | 'i' :: 'n' :: 'f' :: rest => some (.float (if negative then "-inf" else "inf"), rest)
  | 'n' :: 'a' :: 'n' :: rest => some (.float "NaN", rest)
  | _ => none

/-- Digits of a base as a number that fits into 64 bits with sign. -/
private def based? (base : Nat) (isDigit : Char → Bool) (text : List Char) :
    Option (Datum × List Char) := do
  let (digits, rest) ← digits? isDigit text
  let value := digits.foldl (fun n c => n * base + (hexDigit? c).getD 0) 0
  guard (value < Nat.pow 2 63)
  return (.int value, rest)

/-- Reads a whole number. -/
private def whole? (text : List Char) : Option (Datum × List Char) :=
  match text with
  | '0' :: 'x' :: rest => based? 16 (fun c => (hexDigit? c).isSome) rest
  | '0' :: 'o' :: rest => based? 8 (fun c => '0' ≤ c && c ≤ '7') rest
  | '0' :: 'b' :: rest => based? 2 (fun c => c = '0' || c = '1') rest
  | text => do
    let (negative, rest) := sign text
    let (digits, rest) ← wholeDigits? rest
    let size : Int := Nat.ofDigitChars 10 digits 0
    let value := if negative then -size else size
    guard (-(Nat.pow 2 63) ≤ value ∧ value < Nat.pow 2 63)
    return (.int value, rest)

/-- Reads a number of any kind. -/
def number? (text : List Char) : Option (Datum × List Char) :=
  named? text <|> float? text <|> whole? text

end Toml

end PageLoom
