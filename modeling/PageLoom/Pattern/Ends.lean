import PageLoom.Pattern.Basic
import PageLoom.Splice.Needle

namespace PageLoom

/-!
# What a pattern matches

A pattern matches from one place of a text to another. The places where a match may end are
listed in order of preference, and the first of them is the one that counts; of several
places where a match may start the leftmost counts.

* `Cursor` — a place in a text, with the characters before it in reverse;
* `Pattern.ends` — the ends of the matches from a place, the preferred one first;
* `Pattern.find` — the first match in the rest of a text;
* `Needle.pattern` — the needle of a pattern.
-/

/-- A place in a text: the characters before it, the nearest one first, and those after. -/
structure Cursor where
  before : List Char
  rest : List Char
  deriving DecidableEq, Repr

namespace Cursor

/-- The character before the place is a word character. -/
def wordBefore (cursor : Cursor) : Bool :=
  cursor.before.head?.any isWord

/-- The character after the place is a word character. -/
def wordAfter (cursor : Cursor) : Bool :=
  cursor.rest.head?.any isWord

end Cursor

/-- The assertion is true of the place. -/
def Assertion.holds (cursor : Cursor) : Assertion → Bool
  | .textStart => cursor.before.isEmpty
  | .textEnd => cursor.rest.isEmpty
  | .lineStart => cursor.before.head?.all (· = '\n')
  | .lineEnd => cursor.rest.head?.all (· = '\n')
  | .wordEdge => cursor.wordBefore != cursor.wordAfter
  | .noWordEdge => cursor.wordBefore == cursor.wordAfter

namespace Pattern

/-- The ends of one round or more from a place. A round that passes no character is the last
    one, and counts only from a `fresh` place, at which no round ended before. `room` bounds
    the number of rounds. -/
def loopEnds (greedy : Bool) (round : Cursor → List Cursor) :
    (room : Nat) → (fresh : Bool) → Cursor → List Cursor
  | 0, _, _ => []
  | room + 1, fresh, cursor =>
    (round cursor).flatMap fun next =>
      if next.rest.length < cursor.rest.length then
        let more := loopEnds greedy round room false next
        if greedy then more ++ [next] else next :: more
      else if fresh then [cursor]
      else []

/-- The ends of the matches of a pattern from a place, the preferred one first. -/
def ends : Pattern → Cursor → List Cursor
  | .empty, cursor => [cursor]
  | .one set, ⟨before, rest⟩ =>
    match rest with
    | [] => []
    | c :: after => if set.holds c then [⟨c :: before, after⟩] else []
  | .check assertion, cursor => if assertion.holds cursor then [cursor] else []
  | .seq first second, cursor => (first.ends cursor).flatMap second.ends
  | .either first second, cursor => first.ends cursor ++ second.ends cursor
  | .loop greedy body, cursor => loopEnds greedy body.ends (cursor.rest.length + 1) true cursor

/-- The first match in the rest of a text, where the rest's first character has the number
    `n`: leftmost, and there the preferred end. -/
def findFrom (pattern : Pattern) (n : Nat) (before : List Char) : List Char → Option Span
  | [] => (pattern.ends ⟨before, []⟩).head?.map fun _ => ⟨n, n⟩
  | c :: rest =>
    match pattern.ends ⟨before, c :: rest⟩ with
    | stop :: _ => some ⟨n, n + (rest.length + 1 - stop.rest.length)⟩
    | [] => findFrom pattern (n + 1) (c :: before) rest

/-- The first match in the rest of a text. -/
def find (pattern : Pattern) (before rest : List Char) : Option Span :=
  pattern.findFrom 0 before rest

/-- A match found from `n` on lies inside the text. -/
theorem findFrom_inside {pattern : Pattern} {n : Nat} {before rest : List Char} {span : Span}
    (h : pattern.findFrom n before rest = some span) :
    span.start ≤ span.stop ∧ span.stop ≤ n + rest.length := by
  induction rest generalizing n before with
  | nil =>
    obtain ⟨stop, -, rfl⟩ := Option.map_eq_some_iff.mp h
    simp
  | cons c rest ih =>
    simp only [findFrom] at h
    split at h
    · cases h
      simp only [List.length_cons]
      omega
    · have := ih h
      simp only [List.length_cons]
      omega

end Pattern

/-- Matches what the pattern matches. -/
def Needle.pattern (pattern : Pattern) : Needle where
  find := pattern.find
  inside h := by
    have := Pattern.findFrom_inside h
    omega

end PageLoom
