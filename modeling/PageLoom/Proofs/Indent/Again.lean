import PageLoom.Proofs.Indent.Lines

namespace PageLoom

/-!
# Indenting again

A text that was indented before is indented like the text it was made from, for any two widths. Both
runs read the text line by line. So it is enough that a line and what became of it do the same to a
state, and that a line which was left out does nothing to it.

* `indentLine_again` — what became of one line, indented again;
* `indentLines_again` — the same for all lines, by induction on them;
* `DiffersInIndents` — two texts differ in the indents of their lines only;
* `indent_again` — the indents that a text has do not matter.
-/

variable {state : IndentState} {line : List Char}

/-! ### One line -/

/-- Behind its indent, an indented line is kept as it is. -/
theorem keptText_indented (count : Nat) (line : List Char) :
    keptText (List.replicate count ' ' ++ keptText line) = keptText line := by
  -- The shape is read off the trimmed line, so both lines are kept in the same way.
  unfold keptText
  have htrim := trim_indented count line
  unfold keptText at htrim
  rw [htrim]
  by_cases hraw : (shapeOf (trim line)).raw.isSome = true
  · simp only [if_pos hraw]
    rw [trimStart_append fun _ => isBlank_of_mem_spaces, trimStart_trimStart]
  · simp only [if_neg hraw]

/-- Outside of raw bodies the leading blanks of a line do not matter. -/
theorem indentLine_trimStart (hraw : state.raw = none) (width : Nat) (line : List Char) :
    indentLine width state (trimStart line) = indentLine width state line := by
  have hkept : keptText (trimStart line) = keptText line := by
    unfold keptText
    rw [trim_trimStart, trimStart_trimStart]
  by_cases hblank : trim line = []
  · rw [indentLine_of_blank hraw hblank, indentLine_of_blank hraw (by rw [trim_trimStart, hblank])]
  · rw [indentLine_of_text hraw hblank, indentLine_of_text hraw (by rwa [trim_trimStart]),
      trim_trimStart, hkept]

/-- **One line again.** A line is left out, and then the state stays as it was, or it becomes one line
    of the result. Read in the same state, that one is indented like the line itself. -/
theorem indentLine_again (width : Nat) (state : IndentState) (hfeed : '\n' ∉ line)
    (hreturn : '\r' ∉ line) :
    ((indentLine width state line).1 = [] ∧ ∀ other, indentLine other state line = ([], state)) ∨
    ∃ emitted, '\n' ∉ emitted ∧ '\r' ∉ emitted ∧
      (indentLine width state line).1 = emitted ++ ['\n'] ∧
      ∀ other, indentLine other state emitted = indentLine other state line := by
  cases hraw : state.raw with
  | some name =>
    refine .inr ⟨line, hfeed, hreturn, ?_, fun _ => rfl⟩
    rw [indentLine_of_raw hraw]
  | none =>
    by_cases hblank : trim line = []
    · cases hprevious : state.previousBlank with
      | true =>
        have hstate : { state with previousBlank := true } = state := by rw [← hprevious]
        have hline : ∀ other, indentLine other state line = ([], state) := by
          intro other
          rw [indentLine_of_blank hraw hblank, hstate, hprevious]
          rfl
        exact .inl ⟨by rw [hline], hline⟩
      | false =>
        have hnil : trim ([] : List Char) = [] := rfl
        refine .inr ⟨[], List.not_mem_nil, List.not_mem_nil, ?_, fun other => ?_⟩
        · rw [indentLine_of_blank hraw hblank, hprevious]
          rfl
        · rw [indentLine_of_blank hraw hnil, indentLine_of_blank hraw hblank]
    · obtain ⟨indent, hindent⟩ : ∃ n, (indentLine width state line).1 =
          List.replicate n ' ' ++ keptText line ++ ['\n'] :=
        ⟨_, by rw [indentLine_of_text hraw hblank]⟩
      have htrim : trim (List.replicate indent ' ' ++ keptText line) = trim line :=
        trim_indented indent line
      -- No line ending comes in: an indent is of spaces, and the rest is of the line.
      have hnew : ∀ c, c ≠ ' ' → c ∉ line → c ∉ List.replicate indent ' ' ++ keptText line := by
        intro c hspace hline hmem
        rcases List.mem_append.mp hmem with hmem | hmem
        · exact hspace (List.eq_of_mem_replicate hmem)
        · exact hline (mem_of_mem_keptText hmem)
      refine .inr ⟨_, hnew '\n' (by decide) hfeed, hnew '\r' (by decide) hreturn, hindent, ?_⟩
      intro other
      rw [indentLine_of_text hraw hblank, indentLine_of_text hraw (by rwa [htrim]), htrim,
        keptText_indented]

/-! ### All lines -/

/-- **All lines again.** Lines that were indented before are indented like the lines they were made
    from. -/
theorem indentLines_again (width other : Nat) (state : IndentState) {source : List (List Char)}
    (hfeed : ∀ line ∈ source, '\n' ∉ line) (hreturn : ∀ line ∈ source, '\r' ∉ line) :
    indentLines other state (lines (indentLines width state source)) =
      indentLines other state source := by
  induction source generalizing state with
  | nil => rfl
  | cons line source ih =>
    obtain ⟨hfeedLine, hfeed⟩ := List.forall_mem_cons.mp hfeed
    obtain ⟨hreturnLine, hreturn⟩ := List.forall_mem_cons.mp hreturn
    rw [indentLines_cons, indentLines_cons]
    rcases indentLine_again width state hfeedLine hreturnLine with
      ⟨htext, hline⟩ | ⟨emitted, hfeedEmitted, hreturnEmitted, htext, hline⟩
    · have hnext : state.next line = state := congrArg Prod.snd (hline 0)
      rw [htext, hline, hnext]
      exact ih state hfeed hreturn
    · have hnext : state.next emitted = state.next line := congrArg Prod.snd (hline 0)
      have hend : emitted.getLast? ≠ some '\r' :=
        fun hlast => hreturnEmitted (List.mem_of_getLast? hlast)
      rw [htext, List.append_assoc, List.singleton_append, lines_append_line hfeedEmitted hend,
        indentLines_cons, hline, hnext, ih (state.next line) hfeed hreturn]

/-! ### Texts -/

/-- The texts differ in indents only: their lines are the same, but for the blanks in front of lines
    that start outside of raw bodies. -/
def DiffersInIndents (text other : List Char) : Prop :=
  List.Forall₂ (fun entry line =>
    if entry.1 then line = entry.2 else trimStart line = trimStart entry.2)
    (trackedLines .start (lines text)) (lines other)

/-- Lines that differ in indents only are indented alike. -/
theorem indentLines_of_indents (width : Nat) (state : IndentState)
    {source others : List (List Char)}
    (h : List.Forall₂ (fun entry line =>
      if entry.1 then line = entry.2 else trimStart line = trimStart entry.2)
      (trackedLines state source) others) :
    indentLines width state others = indentLines width state source := by
  induction source generalizing state others with
  | nil =>
    cases h
    rfl
  | cons line source ih =>
    cases h with
    | @cons _ other _ others hline hothers =>
      have hsame : ∀ width, indentLine width state other = indentLine width state line := by
        intro width
        cases hraw : state.raw with
        | some name =>
          rw [hraw] at hline
          exact congrArg _ hline
        | none =>
          rw [hraw] at hline
          have hline : trimStart other = trimStart line := hline
          rw [← indentLine_trimStart hraw, hline, indentLine_trimStart hraw]
      have hnext : state.next other = state.next line := congrArg Prod.snd (hsame 0)
      rw [indentLines_cons, indentLines_cons, hsame, hnext, ih (state.next line) hothers]

/-- **Indenting again.** Without carriage returns, a text that was indented with some width and is
    indented with another one gives the same as the text itself, so indenting twice is indenting once.
    And any text that differs from it in indents only gives the same result. -/
theorem indent_again {text : List Char} (htext : '\r' ∉ text) :
    (∀ width other, indent other (indent width text) = indent other text) ∧
      (∀ width, indent width (indent width text) = indent width text) ∧
      ∀ width other, DiffersInIndents text other → indent width other = indent width text := by
  have hagain : ∀ width other, indent other (indent width text) = indent other text := by
    intro width other
    exact indentLines_again width other .start (fun _ => feed_not_mem_of_mem_lines)
      fun line hline hmem => htext (mem_of_mem_lines hline hmem)
  exact ⟨hagain, fun width => hagain width width,
    fun width _ hother => indentLines_of_indents width .start hother⟩

/-- A text with a listing whose first line ends with blanks, with blank lines in a row inside and
    outside of the listing, and with a line that closes elements and goes on. -/
def listedText : List Char :=
  "\n<ul>\n<li><pre> \t\n  a\n\n\n b </pre><b>\n\n \nx\n</b></li></ul>y".toList

/-- The text with other indents, and with a blank line that is not empty. -/
def shiftedText : List Char :=
  " \n\t<ul>\n        <li><pre> \t\n  a\n\n\n b </pre><b>\n\n\n x\n </b></li></ul>y".toList

/-- The text, the text with other indents, and the text that was indented before with eight spaces
    all give the same result, in which the listing is unchanged. -/
theorem indent_again_listed :
    '\r' ∉ listedText ∧ DiffersInIndents listedText shiftedText ∧
      indent 2 listedText =
        "<ul>\n  <li><pre> \t\n  a\n\n\n b </pre><b>\n\n      x\n</b></li></ul>y\n".toList ∧
      indent 2 (indent 8 listedText) = indent 2 listedText ∧
      indent 2 shiftedText = indent 2 listedText := by
  have hreturn : '\r' ∉ listedText := by decide +kernel
  have hdiffers : DiffersInIndents listedText shiftedText := by
    unfold DiffersInIndents
    decide +kernel
  obtain ⟨hagain, -, hindents⟩ := indent_again hreturn
  exact ⟨hreturn, hdiffers, by decide +kernel, hagain 8 2, hindents 2 _ hdiffers⟩

end PageLoom
