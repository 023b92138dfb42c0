import PageLoom.Splice.Needle

namespace PageLoom

/-!
# Splicing

Splicing puts a value in the place of every match of a needle. The matches are those of the
given text, found from left to right without overlap: after a match with characters the
search goes on at its end, after an empty match one character later, and an empty match at
the end of the text is the last one. A value that has been put in is never searched.

* `Pieces` — a text cut into gaps and matches;
* `Needle.pieces` — the cut that a needle makes;
* `splice` — the text with every match replaced.
-/

/-- A text cut into matches, each with the gap before it, and the tail after the last one. -/
structure Pieces where
  hits : List (List Char × List Char)
  tail : List Char
  deriving DecidableEq, Repr

namespace Pieces

/-- The pieces with one more character in front, which belongs to the first gap. -/
def push (c : Char) : Pieces → Pieces
  | ⟨[], tail⟩ => ⟨[], c :: tail⟩
  | ⟨(gap, hit) :: more, tail⟩ => ⟨(c :: gap, hit) :: more, tail⟩

/-- The pieces with one more match in front. -/
def cons (gap hit : List Char) (pieces : Pieces) : Pieces :=
  ⟨(gap, hit) :: pieces.hits, pieces.tail⟩

/-- The pieces put together with `value` in the place of each match. -/
def fill (value : List Char) (pieces : Pieces) : List Char :=
  pieces.hits.flatMap (fun piece => piece.1 ++ value) ++ pieces.tail

/-- The text that the pieces were cut from. -/
def text (pieces : Pieces) : List Char :=
  pieces.hits.flatMap (fun piece => piece.1 ++ piece.2) ++ pieces.tail

end Pieces

/-- The cut that a needle makes in the rest of a text. -/
def Needle.pieces (needle : Needle) (before rest : List Char) : Pieces :=
  match _found : needle.find before rest with
  | none => ⟨[], rest⟩
  | some span =>
    let gap := rest.take span.start
    let hit := (rest.drop span.start).take (span.stop - span.start)
    if span.isEmpty then
      match _after : rest.drop span.stop with
      | [] => ⟨[(gap, hit)], []⟩
      | c :: after =>
        Pieces.cons gap hit (Pieces.push c (needle.pieces (c :: gap.reverseAux before) after))
    else
      Pieces.cons gap hit
        (needle.pieces (hit.reverseAux (gap.reverseAux before)) (rest.drop span.stop))
termination_by rest.length
decreasing_by
  · have hl := congrArg List.length _after
    simp only [List.length_drop, List.length_cons] at hl
    omega
  · rename_i he
    have hi := needle.inside _found
    simp only [Span.isEmpty, beq_iff_eq] at he
    simp only [List.length_drop]
    omega

/-- The text with every match of the needle replaced by `value`. -/
def splice (needle : Needle) (value text : List Char) : List Char :=
  (needle.pieces [] text).fill value

/-- The needle matches somewhere in the text. -/
def Needle.occursIn (needle : Needle) (text : List Char) : Bool :=
  !(needle.pieces [] text).hits.isEmpty

end PageLoom
