namespace PageLoom

/-!
# Data trees

A configuration text is read into a tree before it is given a meaning. A text with a fault is
read up to the fault, which stands in the tree in the place of what could not be read. Whoever
walks the tree from left to right therefore meets the faults of the text and the faults of its
meaning in the order of the text.

* `Fault` — what is wrong with the text itself;
* `Datum` — a tree;
* `Datum.skip?` — the fault met in passing over a tree.
-/

/-- What is wrong with a text: it breaks the rules of its format, or it ends too early. -/
inductive Fault where
  | syntaxError
  | endOfText
  deriving DecidableEq, Repr

/-- A tree of data. A list or map with a fault could not be read to its end. A key without a
    text, and a `broken` datum, cannot be read; a broken datum may still be skipped if it has
    no second fault. -/
inductive Datum where
  | null
  | bool (value : Bool)
  | int (value : Int)
  | float (shown : String)
  | text (value : String)
  | list (items : List Datum) (fault : Option Fault)
  | map (members : List (Option String × Datum)) (fault : Option Fault)
  | broken (read : Fault) (skipped : Option Fault)

namespace Datum

/-- The fault that is met in passing over a tree without reading it. -/
def skip? : Datum → Option Fault
  | .list items fault => skipItems? items <|> fault
  | .map members fault => skipMembers? members <|> fault
  | .broken _ skipped => skipped
  | _ => none
where
  /-- The first fault in a list of trees. -/
  skipItems? : List Datum → Option Fault
    | [] => none
    | item :: rest => item.skip? <|> skipItems? rest
  /-- The first fault in the values of members. -/
  skipMembers? : List (Option String × Datum) → Option Fault
    | [] => none
    | (_, value) :: rest => value.skip? <|> skipMembers? rest

end Datum

end PageLoom
