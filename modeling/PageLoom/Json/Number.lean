import PageLoom.Data.Datum
import PageLoom.Data.Decimal

namespace PageLoom

/-!
# JSON numbers

A number without a fraction and an exponent is whole if it fits into 64 bits. Any other number
is its leading digits, as far as they fit into 64 bits, times or over a power of ten.

* `Json.Numeral` — the digits of a number;
* `Json.numeral` — reads the digits;
* `Json.Numeral.datum` — the value of the digits.
-/

namespace Json

/-- The digits of a number: its sign, the digits before and after the point, and the exponent
    with its sign. -/
structure Numeral where
  negative : Bool
  whole : List Char
  fraction : Option (List Char)
  exponent : Option (Bool × List Char)
  deriving DecidableEq, Repr

/-- The fault of a number that stops where a digit should be. Who passes over the number does
    not tell an early end from a wrong character. -/
private def digitMissing (rest : List Char) : Fault × Fault :=
  (if rest.isEmpty then .endOfText else .syntaxError, .syntaxError)

/-- Reads the exponent of a number, if there is one. -/
private def exponentPart (text : List Char) :
    Except (Fault × Fault) (Option (Bool × List Char) × List Char) :=
  match text with
  | c :: rest =>
    if c = 'e' ∨ c = 'E' then
      let (negative, rest) :=
        match rest with
        | '+' :: rest => (false, rest)
        | '-' :: rest => (true, rest)
        | rest => (false, rest)
      let digits := rest.takeWhile Char.isDigit
      if digits.isEmpty then .error (digitMissing rest)
      else .ok (some (negative, digits), rest.drop digits.length)
    else .ok (none, text)
  | [] => .ok (none, [])

/-- Reads the fraction of a number, if there is one. -/
private def fractionPart (text : List Char) :
    Except (Fault × Fault) (Option (List Char) × List Char) :=
  match text with
  | '.' :: rest =>
    let digits := rest.takeWhile Char.isDigit
    if digits.isEmpty then .error (digitMissing rest)
    else .ok (some digits, rest.drop digits.length)
  | text => .ok (none, text)

/-- Reads a number from its sign or first digit on. A fault is given for those who read the
    number and for those who pass over it. -/
def numeral (text : List Char) : Except (Fault × Fault) (Numeral × List Char) := do
  let (negative, rest) :=
    match text with
    | '-' :: rest => (true, rest)
    | text => (false, text)
  let whole := rest.takeWhile Char.isDigit
  if whole.isEmpty then throw (digitMissing rest)
  if whole.head? = some '0' ∧ whole.length > 1 then throw (.syntaxError, .syntaxError)
  let (fraction, rest) ← fractionPart (rest.drop whole.length)
  let (exponent, rest) ← exponentPart rest
  return (⟨negative, whole, fraction, exponent⟩, rest)

/-- The largest number of 64 bits. -/
def wordLimit : Nat := UInt64.size - 1

/-- The value of a digit. -/
private def digit (c : Char) : Nat :=
  c.toNat - '0'.toNat

/-- Leading digits as far as they fit into 64 bits, and how many were left out. -/
private def leading (start : Nat) : List Char → Nat × Nat
  | [] => (start, 0)
  | c :: rest =>
    let next := start * 10 + digit c
    if next ≤ wordLimit then leading next rest else (start, rest.length + 1)

/-- Ten to a power that is small enough for a number of its own. -/
private def powerOfTen (n : Nat) : Float :=
  .ofScientific 1 false n

/-- The number `significand · 10 ^ exponent`, rounded after each operation, unless it is too
    large. -/
private def scale? (significand : Float) (exponent : Int) : Option Float :=
  if exponent > 308 then if significand == 0 then some significand else none
  else if exponent ≥ 0 then
    let value := significand * powerOfTen exponent.toNat
    if value.isInf then none else some value
  else if exponent ≥ -308 then some (significand / powerOfTen (-exponent).toNat)
  else
    let small := significand / powerOfTen 308
    let exponent := exponent + 308
    if exponent ≥ -308 then some (small / powerOfTen (-exponent).toNat) else some (small * 0)

namespace Numeral

/-- The value of a number with a fraction, an exponent or too many digits, unless it is too
    large. -/
private def float? (n : Numeral) : Option Float :=
  let (significand, dropped) := leading 0 n.whole
  let fraction := n.fraction.getD []
  let (significand, left) := leading significand fraction
  let exponent : Int := dropped - (fraction.length - left : Nat)
  let power : Int :=
    match n.exponent with
    | none => 0
    | some (negative, digits) =>
      let size : Int := Nat.ofDigitChars 10 digits 0
      if negative then -size else size
  (scale? (Float.ofNat significand) (exponent + power)).map fun value =>
    if n.negative then -value else value

/-- The value of a number. A number that is too large can only be passed over. -/
def datum (n : Numeral) : Datum :=
  let size := Nat.ofDigitChars 10 n.whole 0
  if n.fraction.isNone ∧ n.exponent.isNone ∧ !n.negative ∧ size ≤ wordLimit then .int size
  else if n.fraction.isNone ∧ n.exponent.isNone ∧ n.negative ∧ 0 < size ∧ size ≤ Nat.pow 2 63 then
    .int (-size)
  else
    match n.float? with
    | some value => .float (showFloat value)
    | none => .broken .syntaxError none

end Numeral

end Json

end PageLoom
