namespace PageLoom

/-!
# Dates and times in TOML

A date, a time of day, or a date with a time, which may have an offset. Only days that exist
are dates.

* `Toml.moment?` — reads a date or time, and gives its written form.
-/

namespace Toml

/-- The number written by exactly `count` digits. -/
private def fixed? (count : Nat) (text : List Char) : Option (Nat × List Char) :=
  let digits := text.take count
  if digits.length = count ∧ digits.all Char.isDigit then
    some (Nat.ofDigitChars 10 digits 0, text.drop count)
  else none

/-- The text after a given character. -/
private def after? (c : Char) : List Char → Option (List Char)
  | d :: rest => if d = c then some rest else none
  | [] => none

/-- A number with at least `width` digits. -/
private def padded (width n : Nat) : String :=
  let digits := Nat.toDigits 10 n
  String.ofList (List.replicate (width - digits.length) '0' ++ digits)

/-- The year has a 29th of February. -/
private def isLeapYear (year : Nat) : Bool :=
  year % 4 = 0 && (year % 100 ≠ 0 || year % 400 = 0)

/-- The number of days of a month. -/
private def daysOfMonth (year month : Nat) : Nat :=
  if month = 2 then if isLeapYear year then 29 else 28
  else if month = 4 || month = 6 || month = 9 || month = 11 then 30
  else 31

/-- Reads a date. -/
private def date? (text : List Char) : Option (String × List Char) := do
  let (year, rest) ← fixed? 4 text
  let (month, rest) ← fixed? 2 (← after? '-' rest)
  let (day, rest) ← fixed? 2 (← after? '-' rest)
  guard (1 ≤ month ∧ month ≤ 12 ∧ 1 ≤ day ∧ day ≤ daysOfMonth year month)
  return (padded 4 year ++ "-" ++ padded 2 month ++ "-" ++ padded 2 day, rest)

/-- The written form of the digits after the point of a second. -/
private def fractionText (digits : List Char) : String :=
  let shown := ((digits.take 9).reverse.dropWhile (· = '0')).reverse
  if shown.isEmpty then "" else "." ++ String.ofList shown

/-- Reads a time of day. -/
private def time? (text : List Char) : Option (String × List Char) := do
  let (hour, rest) ← fixed? 2 text
  let (minute, rest) ← fixed? 2 (← after? ':' rest)
  let (second, rest) ← fixed? 2 (← after? ':' rest)
  guard (hour ≤ 23 ∧ minute ≤ 59 ∧ second ≤ 60)
  let shown := padded 2 hour ++ ":" ++ padded 2 minute ++ ":" ++ padded 2 second
  match rest with
  | '.' :: more =>
    let digits := more.takeWhile Char.isDigit
    if digits.isEmpty then return (shown, rest)
    else return (shown ++ fractionText digits, more.drop digits.length)
  | rest => return (shown, rest)

/-- Reads an offset from universal time, if there is one. -/
private def offset (text : List Char) : String × List Char :=
  match text with
  | [] => ("", [])
  | c :: rest =>
    if c = 'Z' || c = 'z' then ("Z", rest)
    else if c = '+' || c = '-' then
      let read := do
        let (hour, rest) ← fixed? 2 rest
        let (minute, rest) ← fixed? 2 (← after? ':' rest)
        guard (hour ≤ 23 ∧ minute ≤ 59)
        return (c.toString ++ padded 2 hour ++ ":" ++ padded 2 minute, rest)
      read.getD ("", text)
    else ("", text)

/-- Reads a date or time, and gives its written form. -/
def moment? (text : List Char) : Option (String × List Char) :=
  match date? text with
  | none => time? text
  | some (date, rest) =>
    match rest with
    | [] => some (date, [])
    | c :: more =>
      if c = 'T' || c = 't' || c = ' ' then
        match time? more with
        | some (time, more) =>
          let (zone, more) := offset more
          some (date ++ "T" ++ time ++ zone, more)
        | none => some (date, rest)
      else some (date, rest)

end Toml

end PageLoom
