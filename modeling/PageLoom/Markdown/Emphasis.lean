import PageLoom.Markdown.Inline

namespace PageLoom.Markdown

/-!
# Emphasis

Runs of stars, underscores and tildes are matched from left to right: a run that can close
looks for the nearest run that can open and fits.

* `Opener` — a run that waits to be closed;
* `emphasize` — inline content with its emphasis.
-/

/-- A run that waits to be closed: how much of it is left, and the content before it, the last
    piece first. -/
structure Opener where
  run : DelimiterRun
  left : Nat
  before : List Inline

/-- The characters of a run as text, none if the run is used up. -/
private def runText (symbol : Char) (left : Nat) : List Inline :=
  if left = 0 then [] else [.text (List.replicate left symbol)]

/-- The run can be closed by another one. Stars and underscores that could both open and close
    must not add up to a multiple of three, unless both are one. Tildes must be equally
    many. -/
def DelimiterRun.fits (opening closing : DelimiterRun) : Bool :=
  opening.symbol = closing.symbol &&
    if closing.symbol = '~' then opening.length = closing.length
    else
      !(opening.opens && opening.closes) && !(closing.opens && closing.closes) ||
        (opening.length + closing.length) % 3 ≠ 0 || closing.length % 3 = 0

/-- Content set off by `count` characters on either side, two at a time from the inside out. -/
private def wrap (symbol : Char) : (count : Nat) → List Inline → List Inline
  | 0, content => content
  | 1, content => [.emphasis (if symbol = '~' then .struck else .plain) content]
  | count + 2, content =>
    wrap symbol count [.emphasis (if symbol = '~' then .struck else .strong) content]

/-- How far the matching of runs is: the runs that wait, the nearest one first, how many of
    them, from the first one on, tildes do not see any more, and the content after the nearest
    one, the last piece first. -/
structure Matching where
  openers : List Opener
  hidden : Nat
  content : List Inline

namespace Matching

/-- Gives up the nearest run. -/
private def giveUp (state : Matching) : Matching :=
  match state.openers with
  | [] => state
  | opener :: more =>
    { state with
      openers := more
      hidden := min state.hidden more.length
      content := state.content ++ runText opener.run.symbol opener.left ++ opener.before }

/-- How many runs stand nearer than the nearest one that fits. -/
private def distance? (state : Matching) (closing : DelimiterRun) : Option Nat :=
  let hidden := if closing.symbol = '~' then state.hidden else 0
  (state.openers.take (state.openers.length - hidden)).findIdx? (·.run.fits closing)

/-- Closes runs with `left` characters of a closing run, as long as one fits, but at most
    `room` runs. Tells how many characters are left. -/
private def closeRuns (closing : DelimiterRun) : (left : Nat) → (room : Nat) → Matching →
    Matching × Nat
  | left, 0, state => (state, left)
  | left, room + 1, state =>
    if left = 0 then (state, 0)
    else
      match state.distance? closing with
      | none =>
        let hidden := if closing.symbol = '~' then state.openers.length else state.hidden
        ({ state with hidden }, left)
      | some distance =>
        let state := distance.repeat giveUp state
        match state.openers with
        | [] => (state, left)
        | opener :: more =>
          let count := min left opener.left
          let content := wrap closing.symbol count state.content.reverse
          let after := { state with hidden := min state.hidden more.length }
          if opener.left = count then
            closeRuns closing (left - count) room
              { after with openers := more, content := content.reverse ++ opener.before }
          else
            closeRuns closing (left - count) room
              { after with
                openers := { opener with left := opener.left - count } :: more
                content := content.reverse }

/-- Takes in a piece. -/
private def step (state : Matching) : Piece → Matching
  | .node content => { state with content := content :: state.content }
  | .run run =>
    let (state, left) :=
      if run.closes then state.closeRuns run run.length run.length
      else (state, run.length)
    if left = 0 then state
    else if run.opens then
      { state with openers := ⟨run, left, state.content⟩ :: state.openers, content := [] }
    else { state with content := runText run.symbol left ++ state.content }

end Matching

/-- Inline content with its emphasis. -/
def emphasize (pieces : List Piece) : List Inline :=
  let state := pieces.foldl Matching.step ⟨[], 0, []⟩
  (state.openers.length.repeat Matching.giveUp state).content.reverse

end PageLoom.Markdown
