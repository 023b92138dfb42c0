import Mathlib.Data.List.SplitBy
import PageLoom.Indent.Format
import PageLoom.Proofs.Trim

namespace PageLoom

/-!
# Which lines indenting keeps

Indenting goes from line to line. Here each line is looked at by itself, with the state in front of
it, and a whole text is put together from its lines.

* `IndentState.next`, `IndentState.afterLines` — the state behind one line and behind several ones;
* `indentLines_append` — the text of lines one after the other;
* `indentLine_of_raw`, `indentLine_of_blank`, `indentLine_of_text` — the three kinds of lines;
* `trackedLines`, `isGap`, `gapRuns` — lines with what the indenter takes them for, and the runs of
  blank lines between them;
* `forall₂_becomesLine` — what becomes of each run;
* `indent_keeps_lines` — lines are kept, and only runs of blank lines get shorter.
-/

/-! ### States -/

/-- The state behind a line. It does not depend on the width of an indent. -/
def IndentState.next (state : IndentState) (line : List Char) : IndentState :=
  (indentLine 0 state line).2

/-- The state behind several lines. -/
def IndentState.afterLines (state : IndentState) (lines : List (List Char)) : IndentState :=
  lines.foldl IndentState.next state

variable {width : Nat} {state : IndentState} {line : List Char}

/-- In the body of a raw element a line is copied. -/
theorem indentLine_of_raw {name : List Char} (h : state.raw = some name) (width : Nat)
    (line : List Char) :
    indentLine width state line = (line ++ ['\n'], state.afterRaw name line) := by
  rw [indentLine, h]

/-- Outside of raw bodies a blank line is empty, and only the first one of a run is there. -/
theorem indentLine_of_blank (hraw : state.raw = none) (hblank : trim line = []) (width : Nat) :
    indentLine width state line =
      (if state.previousBlank then [] else ['\n'], { state with previousBlank := true }) := by
  rw [indentLine, hraw]
  simp only [hblank, List.isEmpty_nil, if_true]

/-- The text of a line behind its indent: without the blanks at its end, unless they belong to the
    body of a raw element. -/
def keptText (line : List Char) : List Char :=
  if (shapeOf (trim line)).raw.isSome then trimStart line else trim line

/-- Outside of raw bodies any other line is indented. -/
theorem indentLine_of_text (hraw : state.raw = none) (htext : trim line ≠ []) (width : Nat) :
    indentLine width state line =
      (List.replicate ((state.depth - (shapeOf (trim line)).leadingCloses) * width) ' ' ++
          keptText line ++ ['\n'],
        ⟨(shapeOf (trim line)).after state.depth, (shapeOf (trim line)).raw, false⟩) := by
  rw [indentLine, hraw]
  simp only [List.isEmpty_iff, if_neg htext, keptText]

/-- Every width leaves the same state behind. -/
theorem indentLine_snd (width : Nat) (state : IndentState) (line : List Char) :
    (indentLine width state line).2 = state.next line := by
  unfold IndentState.next
  cases hraw : state.raw with
  | some name => rw [indentLine_of_raw hraw, indentLine_of_raw hraw]
  | none =>
    by_cases hblank : trim line = []
    · rw [indentLine_of_blank hraw hblank, indentLine_of_blank hraw hblank]
    · rw [indentLine_of_text hraw hblank, indentLine_of_text hraw hblank]

/-- The text of lines is the text of the first one and that of the others behind it. -/
theorem indentLines_cons (width : Nat) (state : IndentState) (line : List Char)
    (rest : List (List Char)) :
    indentLines width state (line :: rest) =
      (indentLine width state line).1 ++ indentLines width (state.next line) rest := by
  rw [← indentLine_snd width, indentLines]

/-- **Pieces.** The text of lines in two pieces is that of the first piece, and that of the second
    one from the state that the first one leaves behind. -/
theorem indentLines_append (width : Nat) (state : IndentState) (before after : List (List Char)) :
    indentLines width state (before ++ after) =
      indentLines width state before ++ indentLines width (state.afterLines before) after := by
  induction before generalizing state with
  | nil => rfl
  | cons line before ih =>
    rw [List.cons_append, indentLines_cons, indentLines_cons, ih, List.append_assoc]
    rfl

/-! ### Gaps -/

/-- Lines with what the indenter takes them for: the mark is set on lines that start in the body of
    a raw element. -/
def trackedLines (state : IndentState) : List (List Char) → List (Bool × List Char)
  | [] => []
  | line :: rest => (state.raw.isSome, line) :: trackedLines (state.next line) rest

/-- A blank line outside of raw bodies. -/
def isGap (entry : Bool × List Char) : Bool :=
  !entry.1 && (trim entry.2).isEmpty

/-- The longest runs of gaps, and every other line as a run of its own. -/
def gapRuns (entries : List (Bool × List Char)) : List (List (Bool × List Char)) :=
  entries.splitBy fun entry next => isGap entry && isGap next

/-- What becomes of a run: an empty line of a run of gaps, and of any other line one with the same
    text between the blanks at its ends. -/
inductive BecomesLine : List (Bool × List Char) → List Char → Prop
  | gaps {run : List (Bool × List Char)} : (∀ entry ∈ run, isGap entry = true) → BecomesLine run []
  | text {entry : Bool × List Char} {line : List Char} :
      isGap entry = false → trim line = trim entry.2 → BecomesLine [entry] line

/-- A line that is no gap is a run of its own. -/
theorem gapRuns_cons_text {entry : Bool × List Char} (h : isGap entry = false)
    (rest : List (Bool × List Char)) : gapRuns (entry :: rest) = [entry] :: gapRuns rest := by
  have hsplit := List.splitBy_append (r := fun entry next => isGap entry && isGap next)
    (l := [entry]) (m := rest) (by simp [h])
  exact hsplit

/-- A gap is in one run with all gaps right behind it. -/
theorem gapRuns_cons_gap {entry : Bool × List Char} (h : isGap entry = true)
    (rest : List (Bool × List Char)) :
    gapRuns (entry :: rest) =
      (entry :: rest.takeWhile isGap) :: gapRuns (rest.dropWhile isGap) := by
  have hgaps : ∀ gap ∈ entry :: rest.takeWhile isGap, isGap gap = true := by
    intro gap hgap
    rcases List.mem_cons.mp hgap with rfl | hgap
    · exact h
    · exact List.mem_takeWhile_imp hgap
  have hchain : (entry :: rest.takeWhile isGap).IsChain
      fun entry next => (isGap entry && isGap next) = true := by
    refine List.isChain_iff_getElem.mpr fun i hi => ?_
    rw [Bool.and_eq_true]
    exact ⟨hgaps _ (List.getElem_mem _), hgaps _ (List.getElem_mem _)⟩
  have hsplit := List.splitBy_append (r := fun entry next => isGap entry && isGap next)
    (l := entry :: rest.takeWhile isGap) (m := rest.dropWhile isGap) ?_
  · rw [List.cons_append, List.takeWhile_append_dropWhile,
      List.splitBy_of_isChain (by simp) hchain] at hsplit
    exact hsplit
  · -- What follows the gaps starts with another line.
    intro last _ next hnext
    have hhead := List.head?_dropWhile_not isGap rest
    rw [Option.mem_def.mp hnext] at hhead
    rw [hhead, Bool.and_false]

/-! ### Emitted lines -/

/-- The text behind an indent is the line, but for blanks at its ends. -/
theorem trim_keptText (line : List Char) : trim (keptText line) = trim line := by
  unfold keptText
  split
  · exact trim_trimStart line
  · exact trim_trim line

/-- An indented line is the line, but for blanks at its ends. -/
theorem trim_indented (count : Nat) (line : List Char) :
    trim (List.replicate count ' ' ++ keptText line) = trim line :=
  (trim_front (fun _ => isBlank_of_mem_spaces) (keptText line)).trans (trim_keptText line)

/-- The characters behind an indent are characters of the line. -/
theorem mem_of_mem_keptText {c : Char} (h : c ∈ keptText line) : c ∈ line := by
  unfold keptText at h
  split at h
  · exact (List.dropWhile_suffix isBlank).subset h
  · exact mem_of_mem_trim h

/-- **One line.** A line that is no gap gives one line of the result, with the same text between
    the blanks at its ends. A gap gives an empty line or none. -/
theorem indentLine_emits (width : Nat) (state : IndentState) (hline : '\n' ∉ line) :
    (isGap (state.raw.isSome, line) = true ∧
      (indentLine width state line).1 = (if state.previousBlank then [] else ['\n']) ∧
      (state.next line).previousBlank = true) ∨
    (isGap (state.raw.isSome, line) = false ∧ (state.next line).previousBlank = false ∧
      ∃ emitted, '\n' ∉ emitted ∧ trim emitted = trim line ∧
        (indentLine width state line).1 = emitted ++ ['\n']) := by
  rw [← indentLine_snd width]
  cases hraw : state.raw with
  | some name =>
    rw [indentLine_of_raw hraw]
    refine .inr ⟨rfl, ?_, line, hline, rfl, rfl⟩
    unfold IndentState.afterRaw
    split <;> rfl
  | none =>
    by_cases hblank : trim line = []
    · rw [indentLine_of_blank hraw hblank]
      exact .inl ⟨by simp [isGap, hblank], rfl, rfl⟩
    · rw [indentLine_of_text hraw hblank]
      refine .inr ⟨by simp [isGap, hblank], rfl, _, ?_, ?_, rfl⟩
      · intro hmem
        rcases List.mem_append.mp hmem with hmem | hmem
        · exact absurd (List.eq_of_mem_replicate hmem) (by decide)
        · exact hline (mem_of_mem_keptText hmem)
      · exact trim_indented _ line

/-- The first line of a text that starts with a line of the result. -/
theorem exists_lines_emitted {emitted : List Char} (h : '\n' ∉ emitted) (rest : List Char) :
    ∃ kept, trim kept = trim emitted ∧ lines (emitted ++ ['\n'] ++ rest) = kept :: lines rest := by
  obtain ⟨kept, hkept, hlines⟩ := exists_lines_append h rest
  refine ⟨kept, ?_, by rw [List.append_assoc]; exact hlines⟩
  rcases hkept with rfl | rfl
  · rfl
  · exact (trim_append_return kept).symm

/-- An empty line is the first line of a text that starts with a line feed. -/
theorem lines_feed (rest : List Char) : lines (['\n'] ++ rest) = [] :: lines rest := by
  rw [List.singleton_append, lines, linesFrom, if_pos rfl]
  rfl

/-! ### Texts -/

/-- **Runs.** Every run of gaps becomes one empty line, and every other line becomes one with the
    same text. Gaps are left out where a blank line was in front of them. -/
theorem forall₂_becomesLine (width : Nat) (state : IndentState) {source : List (List Char)}
    (hsource : ∀ line ∈ source, '\n' ∉ line) :
    List.Forall₂ BecomesLine
      (gapRuns (if state.previousBlank then (trackedLines state source).dropWhile isGap
        else trackedLines state source))
      (lines (indentLines width state source)) := by
  induction source generalizing state with
  | nil => cases state.previousBlank <;> exact .nil
  | cons line source ih =>
    obtain ⟨hline, hsource⟩ := List.forall_mem_cons.mp hsource
    have ih := @ih (state.next line) hsource
    rw [indentLines_cons, trackedLines]
    rcases indentLine_emits width state hline with
      ⟨hgap, htext, hprevious⟩ | ⟨hgap, hprevious, emitted, hemitted, htrim, htext⟩
    · rw [hprevious, if_pos rfl] at ih
      rw [htext]
      cases hbefore : state.previousBlank with
      | true =>
        rw [if_pos rfl, if_pos rfl, List.nil_append, List.dropWhile_cons, if_pos hgap]
        exact ih
      | false =>
        rw [if_neg Bool.false_ne_true, if_neg Bool.false_ne_true, gapRuns_cons_gap hgap, lines_feed]
        refine .cons (.gaps fun entry hentry => ?_) ih
        rcases List.mem_cons.mp hentry with rfl | hentry
        · exact hgap
        · exact List.mem_takeWhile_imp hentry
    · rw [hprevious, if_neg Bool.false_ne_true] at ih
      have hkept : (if state.previousBlank then
          ((state.raw.isSome, line) :: trackedLines (state.next line) source).dropWhile isGap
          else (state.raw.isSome, line) :: trackedLines (state.next line) source) =
          (state.raw.isSome, line) :: trackedLines (state.next line) source := by
        split
        · rw [List.dropWhile_cons, if_neg (by simp [hgap])]
        · rfl
      obtain ⟨kept, hkeptText, hlines⟩ := exists_lines_emitted hemitted
        (indentLines width (state.next line) source)
      rw [hkept, gapRuns_cons_text hgap, htext, hlines]
      exact .cons (.text hgap (hkeptText.trans htrim)) ih

/-- The text of lines is empty or ends with a line feed. -/
theorem indentLines_ends (width : Nat) (state : IndentState) {source : List (List Char)}
    (hsource : ∀ line ∈ source, '\n' ∉ line) :
    indentLines width state source = [] ∨
      ∃ front, indentLines width state source = front ++ ['\n'] := by
  induction source generalizing state with
  | nil => exact .inl rfl
  | cons line source ih =>
    obtain ⟨hline, hsource⟩ := List.forall_mem_cons.mp hsource
    rw [indentLines_cons]
    rcases @ih (state.next line) hsource with hrest | ⟨front, hrest⟩
    · rw [hrest, List.append_nil]
      rcases indentLine_emits width state hline with ⟨-, htext, -⟩ | ⟨-, -, emitted, -, -, htext⟩
      · rw [htext]
        split
        · exact .inl rfl
        · exact .inr ⟨[], rfl⟩
      · exact .inr ⟨emitted, htext⟩
    · rw [hrest, ← List.append_assoc]
      exact .inr ⟨_, rfl⟩

/-- The lines that are tracked are those of the text. -/
theorem map_snd_trackedLines (state : IndentState) (source : List (List Char)) :
    (trackedLines state source).map Prod.snd = source := by
  induction source generalizing state with
  | nil => rfl
  | cons line source ih => rw [trackedLines, List.map_cons, ih]

/-- Nothing is left of a gap. -/
theorem trim_of_isGap {entry : Bool × List Char} (h : isGap entry = true) : trim entry.2 = [] := by
  unfold isGap at h
  rw [Bool.and_eq_true] at h
  exact List.isEmpty_iff.mp h.2

/-- The line that becomes of a run has the only text in the run, if there is one. -/
theorem BecomesLine.filter_eq {run : List (Bool × List Char)} (h : BecomesLine run line) :
    [trim line].filter (· ≠ []) = (run.map fun entry => trim entry.2).filter (· ≠ []) := by
  cases h with
  | gaps hgaps =>
    have hnone : ∀ text ∈ run.map fun entry => trim entry.2, ¬ (decide (text ≠ []) = true) := by
      intro text htext
      obtain ⟨entry, hentry, rfl⟩ := List.mem_map.mp htext
      simp [trim_of_isGap (hgaps entry hentry)]
    rw [List.filter_eq_nil_iff.mpr hnone]
    rfl
  | text _ htrim => rw [htrim, List.map_singleton]

/-- The lines that become of runs have the texts of the lines in the runs that are not blank. -/
theorem filter_of_becomesLine {runs : List (List (Bool × List Char))} {result : List (List Char)}
    (h : List.Forall₂ BecomesLine runs result) :
    (result.map trim).filter (· ≠ []) =
      (runs.flatten.map fun entry => trim entry.2).filter (· ≠ []) := by
  induction h with
  | nil => rfl
  | cons hline _ ih =>
    rw [List.map_cons, ← List.singleton_append, List.filter_append, hline.filter_eq, ih,
      List.flatten_cons, List.map_append, List.filter_append]

/-- Leaving out gaps at the start keeps the lines that are not blank. -/
theorem filter_dropWhile_isGap (entries : List (Bool × List Char)) :
    ((entries.dropWhile isGap).map fun entry => trim entry.2).filter (· ≠ []) =
      (entries.map fun entry => trim entry.2).filter (· ≠ []) := by
  induction entries with
  | nil => rfl
  | cons entry entries ih =>
    rw [List.dropWhile_cons]
    split
    · rename_i hgap
      rw [ih, List.map_cons, List.filter_cons, if_neg (by simp [trim_of_isGap hgap])]
    · rfl

/-- **Raw lines.** Lines that all start in the body of a raw element are copied. -/
theorem indentLines_of_raw (width : Nat) {state : IndentState} {run : List (List Char)}
    (h : ∀ entry ∈ trackedLines state run, entry.1 = true) :
    indentLines width state run = run.flatMap (· ++ ['\n']) := by
  induction run generalizing state with
  | nil => rfl
  | cons line run ih =>
    obtain ⟨hline, hrun⟩ := List.forall_mem_cons.mp h
    obtain ⟨name, hraw⟩ := Option.isSome_iff_exists.mp hline
    rw [indentLines_cons, indentLine_of_raw hraw, ih hrun, List.flatMap_cons]

/-- Lines with their endings put back are those lines again, but for blanks at their ends. -/
theorem map_trim_lines_flatMap {run : List (List Char)} (h : ∀ line ∈ run, '\n' ∉ line) :
    (lines (run.flatMap (· ++ ['\n']))).map trim = run.map trim := by
  induction run with
  | nil => rfl
  | cons line run ih =>
    obtain ⟨hline, hrun⟩ := List.forall_mem_cons.mp h
    obtain ⟨kept, hkept, hlines⟩ := exists_lines_emitted hline (run.flatMap (· ++ ['\n']))
    rw [List.flatMap_cons, hlines, List.map_cons, ih hrun, List.map_cons, hkept]

/-- **Lines.** Indenting keeps the lines of a text that are not blank, in their order and each with
    its text between the blanks at its ends, and the result is empty or ends with a line feed. Of
    the lines that start outside of raw bodies, as the indenter tracks them, each longest run of
    blank ones becomes one empty line, and one at the start is left out. In a raw body no line is
    added or lost. -/
theorem indent_keeps_lines (width : Nat) (text : List Char) :
    ((lines (indent width text)).map trim).filter (· ≠ []) =
        ((lines text).map trim).filter (· ≠ []) ∧
      (indent width text = [] ∨ ∃ front, indent width text = front ++ ['\n']) ∧
      List.Forall₂ BecomesLine (gapRuns ((trackedLines .start (lines text)).dropWhile isGap))
        (lines (indent width text)) ∧
      ∀ before run after, lines text = before ++ run ++ after →
        (∀ entry ∈ trackedLines (IndentState.start.afterLines before) run, entry.1 = true) →
        ∃ copied, (lines copied).map trim = run.map trim ∧
          indent width text = indentLines width .start before ++ copied ++
            indentLines width (IndentState.start.afterLines (before ++ run)) after := by
  have hlines : ∀ line ∈ lines text, '\n' ∉ line := fun _ => feed_not_mem_of_mem_lines
  have hruns : List.Forall₂ BecomesLine
      (gapRuns ((trackedLines .start (lines text)).dropWhile isGap)) (lines (indent width text)) :=
    forall₂_becomesLine width .start hlines
  refine ⟨?_, indentLines_ends width .start hlines, hruns, ?_⟩
  · have htracked := congrArg (List.map trim) (map_snd_trackedLines .start (lines text))
    rw [List.map_map] at htracked
    rw [filter_of_becomesLine hruns, gapRuns, List.flatten_splitBy, filter_dropWhile_isGap,
      ← htracked]
    rfl
  · intro before run after hcut hraw
    refine ⟨run.flatMap (· ++ ['\n']), map_trim_lines_flatMap fun line hline => ?_, ?_⟩
    · refine hlines line ?_
      rw [hcut]
      exact List.mem_append_left _ (List.mem_append_right _ hline)
    · rw [indent, hcut, indentLines_append, indentLines_append, indentLines_of_raw width hraw]

/-- A text with a blank line at its start, two in a row, and two in a raw body. -/
def gappyText : List Char :=
  "\n<div>\n \n\n<pre>\n\n\n</pre>\n</div>".toList

/-- The blank lines of the raw body are all there. -/
theorem indent_keeps_lines_gappy :
    lines gappyText = ["".toList, "<div>".toList, " ".toList, "".toList, "<pre>".toList] ++
        ["".toList, "".toList] ++ ["</pre>".toList, "</div>".toList] ∧
      ∃ copied, (lines copied).map trim = [[], []] ∧
        indent 2 gappyText =
          "<div>\n\n  <pre>\n".toList ++ copied ++ "</pre>\n</div>\n".toList := by
  have hcut : lines gappyText =
      ["".toList, "<div>".toList, " ".toList, "".toList, "<pre>".toList] ++
        ["".toList, "".toList] ++ ["</pre>".toList, "</div>".toList] := by decide +kernel
  refine ⟨hcut, ?_⟩
  obtain ⟨copied, hcopied, htext⟩ :=
    (indent_keeps_lines 2 gappyText).2.2.2 _ _ _ hcut (by decide +kernel)
  have hbefore : indentLines 2 .start ["".toList, "<div>".toList, " ".toList, "".toList,
      "<pre>".toList] = "<div>\n\n  <pre>\n".toList := by decide +kernel
  refine ⟨copied, hcopied, htext.trans ?_⟩
  rw [hbefore]
  congr 1
  decide +kernel

end PageLoom
