namespace PageLoom

/-!
# Sets of characters as ranges of code points

A class of a character standard is given by the ranges of its code points in ascending
order. `CodeRange.covers` asks whether a character lies in one of them.

* `CodeRange` — a closed range of code points;
* `CodeRange.covers` — membership of a character in a list of ranges.
-/

/-- A closed range of code points: the first and the last one. -/
abbrev CodeRange := Nat × Nat

namespace CodeRange

/-- The character's code point lies in one of the ranges. -/
def covers (ranges : List CodeRange) (c : Char) : Bool :=
  ranges.any fun r => r.1 ≤ c.toNat && c.toNat ≤ r.2

end CodeRange

end PageLoom
