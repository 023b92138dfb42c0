namespace PageLoom

/-!
# Shortest decimals

A number in binary floating point is shown by the fewest decimal digits that are nearer to it
than to any other such number; of several such decimals the nearest is taken. It is written
without an exponent and always with a decimal point.

* `Decimal` — a whole number times a power of ten;
* `Decimal.shortest` — the decimal for a binary number `mantissa · 2 ^ exponent`;
* `Decimal.positional` — a decimal written out;
* `showFloat` — the text of a number.
-/

/-- The number `digits · 10 ^ exponent`. -/
structure Decimal where
  digits : Nat
  exponent : Int
  deriving DecidableEq, Repr

namespace Decimal

/-- The fraction `n · base ^ exponent`, as numerator and denominator. -/
private def scaled (base n : Nat) (exponent : Int) : Nat × Nat :=
  if exponent < 0 then (n, base.pow (-exponent).toNat) else (n * base.pow exponent.toNat, 1)

/-- How many digits a positive fraction has before its point, or less one for each zero right
    after it. -/
private def magnitude (num den : Nat) : Int :=
  if den ≤ num then (Nat.toDigits 10 (num / den)).length
  else
    match (List.range 400).find? fun zeros => den ≤ num * Nat.pow 10 (zeros + 1) with
    | some zeros => -zeros
    | none => -400

/-- The decimal with `count` digits that stands for the binary number, if there is one. The
    number is four times `quarters` quarters of its last place; what is nearer to it than to
    its neighbours lies from `low` to `high` quarters. -/
private def withDigits? (low quarters high : Nat) (exponent : Int) (ends : Bool) (power : Int) :
    Option Decimal :=
  let (num, den) := scaled 2 quarters (exponent - 2)
  let grid := scaled 10 1 power
  let below := num * grid.2 / (den * grid.1)
  let inside (c : Nat) : Bool :=
    let value := c * grid.1 * den
    let edge (q : Nat) : Nat := (scaled 2 q (exponent - 2)).1 * grid.2
    if ends then edge low ≤ value && value ≤ edge high else edge low < value && value < edge high
  let twice := 2 * num * grid.2
  let middle := (2 * below + 1) * grid.1 * den
  let nearer := if twice < middle then [below, below + 1] else [below + 1, below]
  (nearer.find? inside).map fun c => ⟨c, power⟩

/-- The same number without zeros at the end of its digits, of which up to `n` are dropped. -/
private def withoutZeros : (n : Nat) → Decimal → Decimal
  | 0, decimal => decimal
  | n + 1, ⟨digits, exponent⟩ =>
    if digits ≠ 0 ∧ digits % 10 = 0 then withoutZeros n ⟨digits / 10, exponent + 1⟩
    else ⟨digits, exponent⟩

/-- The shortest decimal for `mantissa · 2 ^ exponent`. `lowest` tells that the next number
    below is as far away as the next one above. -/
def shortest (mantissa : Nat) (exponent : Int) (lowest : Bool) : Decimal :=
  let quarters := 4 * mantissa
  let low := if lowest then quarters - 2 else quarters - 1
  let (num, den) := scaled 2 mantissa exponent
  let places := magnitude num den
  let tries := (List.range 17).map fun n : Nat => places - (n + 1)
  let ends := mantissa % 2 == 0
  match tries.findSome? (withDigits? low quarters (quarters + 2) exponent ends) with
  | some decimal => withoutZeros 17 decimal
  | none => ⟨num / den, 0⟩

/-- The decimal written out, with at least one digit on either side of the point. -/
def positional (decimal : Decimal) : String :=
  let digits := Nat.toDigits 10 decimal.digits
  if decimal.exponent ≥ 0 then
    String.ofList (digits ++ List.replicate decimal.exponent.toNat '0' ++ ['.', '0'])
  else
    let places := (-decimal.exponent).toNat
    let padded := List.replicate (places + 1 - digits.length) '0' ++ digits
    let whole := padded.length - places
    String.ofList (padded.take whole ++ ['.'] ++ padded.drop whole)

end Decimal

/-- The text of a number in binary floating point. -/
def showFloat (value : Float) : String :=
  let bits : Nat := value.toBits.toNat
  let sign := if bits / Nat.pow 2 63 = 1 then "-" else ""
  let biased : Nat := bits / Nat.pow 2 52 % Nat.pow 2 11
  let fraction : Nat := bits % Nat.pow 2 52
  if biased = 2047 then
    if fraction = 0 then sign ++ "inf" else "NaN"
  else if biased = 0 && fraction = 0 then sign ++ "0.0"
  else if biased = 0 then sign ++ (Decimal.shortest fraction (-1074) true).positional
  else
    let lowest := fraction != 0 || biased == 1
    sign ++ (Decimal.shortest (fraction + Nat.pow 2 52) ((biased : Int) - 1075) lowest).positional

end PageLoom
