import PageLoom.Text.Blank
import PageLoom.Text.CaseFold
import PageLoom.Text.Word

namespace PageLoom

/-!
# Patterns

A pattern describes pieces of text: characters of a set, assertions on the place, sequences,
alternatives in order of preference, and repetitions that prefer more or fewer rounds.

* `CharSet` — a set of characters, given by ranges and named classes;
* `Assertion` — a condition on the place between two characters;
* `Pattern` — the patterns;
* `Pattern.word`, `Pattern.repeated` — patterns built from others.
-/

/-- A part of a set of characters. -/
inductive CharItem where
  | range (first last : Char)
  | word
  | blank
  | digit
  | other (item : CharItem)
  deriving Repr, DecidableEq

/-- The character is in the part of the set. -/
def CharItem.holds (c : Char) : CharItem → Bool
  | .range first last => first ≤ c && c ≤ last
  | .word => isWord c
  | .blank => isBlank c
  | .digit => c.isDigit
  | .other item => !item.holds c

/-- A set of characters: those in one of the items, or those in none if it is `negated`. With
    `foldCase` a character is in an item if it, or one that differs from it by case only, is. -/
structure CharSet where
  items : List CharItem
  negated : Bool
  foldCase : Bool
  deriving Repr, DecidableEq

/-- The characters that differ from the given one by case only, itself included. -/
private def caseVariants (c : Char) : List Char :=
  [c, foldSimple c, c.toLower, c.toUpper]

/-- The character is in the set. -/
def CharSet.holds (set : CharSet) (c : Char) : Bool :=
  let inside :=
    if set.foldCase then (caseVariants c).any fun d => set.items.any (·.holds d)
    else set.items.any (·.holds c)
  inside != set.negated

/-- The set of one character. -/
def CharSet.only (c : Char) : CharSet :=
  ⟨[.range c c], false, false⟩

/-- The set of all characters. -/
def CharSet.all : CharSet :=
  ⟨[], true, false⟩

/-- A condition on a place in a text. -/
inductive Assertion where
  | textStart
  | textEnd
  | lineStart
  | lineEnd
  | wordEdge
  | noWordEdge
  deriving Repr, DecidableEq

/-- A pattern. In `either` the first branch is preferred; `loop` stands for one round or more
    and prefers more of them if it is `greedy`. -/
inductive Pattern where
  | empty
  | one (set : CharSet)
  | check (assertion : Assertion)
  | seq (first second : Pattern)
  | either (first second : Pattern)
  | loop (greedy : Bool) (body : Pattern)
  deriving Repr, DecidableEq

namespace Pattern

/-- The pattern of a word as it is written. -/
def word : List Char → Pattern
  | [] => .empty
  | c :: rest => .seq (.one (.only c)) (word rest)

/-- The pattern or nothing, preferring the pattern if `greedy`. -/
def optional (greedy : Bool) (body : Pattern) : Pattern :=
  if greedy then .either body .empty else .either .empty body

/-- Up to `n` rounds of the pattern. -/
def upTo (greedy : Bool) (body : Pattern) : Nat → Pattern
  | 0 => .empty
  | n + 1 => optional greedy (.seq body (upTo greedy body n))

/-- At least `least` rounds of the pattern. -/
def atLeast (greedy : Bool) (body : Pattern) : (least : Nat) → Pattern
  | 0 => optional greedy (.loop greedy body)
  | 1 => .loop greedy body
  | least + 2 => .seq body (atLeast greedy body (least + 1))

/-- From `least` to `least + more` rounds of the pattern. -/
def fromTo (greedy : Bool) (body : Pattern) (more : Nat) : (least : Nat) → Pattern
  | 0 => upTo greedy body more
  | least + 1 => .seq body (fromTo greedy body more least)

/-- At least `least` rounds of the pattern, and at most `most` if that is given. -/
def repeated (greedy : Bool) (body : Pattern) (most : Option Nat) (least : Nat) : Pattern :=
  match most with
  | none => atLeast greedy body least
  | some most => fromTo greedy body (most - least) least

end Pattern

end PageLoom
