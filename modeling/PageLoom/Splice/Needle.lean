namespace PageLoom

/-!
# Needles

A needle is something that can be found in a text. It is asked with the text in two parts:
the characters already passed, last one first, and the rest, in which it looks for its first
match. The answer is a span of the rest.

* `Span` — a stretch of a text, from `start` up to but not including `stop`;
* `Needle` — a way to find the first match, with the promise that it lies inside the rest.
-/

/-- A stretch of a text: the places from `start` up to but not including `stop`. -/
structure Span where
  start : Nat
  stop : Nat
  deriving DecidableEq, Repr

/-- The span holds no character. -/
def Span.isEmpty (span : Span) : Bool :=
  span.start == span.stop

/-- The span moved `n` places to the right. -/
def Span.shift (span : Span) (n : Nat) : Span :=
  ⟨span.start + n, span.stop + n⟩

/-- A way to find the first match in the rest of a text, given the characters before it in
    reverse. Every match lies inside the rest. -/
structure Needle where
  find : (before rest : List Char) → Option Span
  inside : ∀ {before rest span}, find before rest = some span →
    span.start ≤ span.stop ∧ span.stop ≤ rest.length

namespace Needle

/-- The first match that begins at or after the character with the number `start`, counted
    over the whole text. -/
def findAt (needle : Needle) (text : List Char) (start : Nat) : Option Span :=
  (needle.find (text.take start).reverse (text.drop start)).map (·.shift start)

end Needle

end PageLoom
