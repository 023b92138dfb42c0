import PageLoom.Proofs.Indent.Lines

namespace PageLoom

/-!
# Which characters indenting keeps

Markup has five blanks of its own, and all other characters are content, the blanks of Unicode among
them. Indenting is meant to change blanks of markup only. But it trims lines by the property
White_Space. So a blank that is content is lost where it stands at an end of a line.

* `withoutBlanks`, `contentOf` — the characters of a text that are no blanks, and those that are no
  blanks of markup;
* `lostBlanks`, `lostIn` — the blanks that are taken off a line, and off the lines of a text;
* `indentLine_keeps`, `filter_indentLines` — what is left of one line and of several ones;
* `withoutBlanks_indent` — only blanks are lost;
* `indent_changes_blanks` — when no content is lost;
* `indent_drops_content` — a text that loses content.
-/

/-- The blanks that make no difference to markup: space, tab, line feed, form feed and carriage
    return. -/
def isMarkupBlank (c : Char) : Bool :=
  c = ' ' || c = '\t' || c = '\n' || c = '\x0c' || c = '\r'

/-- The text without its blanks, in the sense of White_Space. -/
def withoutBlanks (text : List Char) : List Char :=
  text.filter fun c => !isBlank c

/-- The text without the blanks of markup. -/
def contentOf (text : List Char) : List Char :=
  text.filter fun c => !isMarkupBlank c

/-- The blanks that are taken off a line outside of raw bodies: those in front of it, and those at its
    end unless it leaves a raw element open. -/
def lostBlanks (line : List Char) : List Char :=
  line.takeWhile isBlank ++
    if (shapeOf (trim line)).raw.isSome then [] else (trimStart line).drop (trim line).length

/-- The blanks that a line loses. Lines that start in the body of a raw element lose none. -/
def lostOf (entry : Bool × List Char) : List Char :=
  if entry.1 then [] else lostBlanks entry.2

/-- All blanks that the lines of a text lose. -/
def lostIn (text : List Char) : List Char :=
  (trackedLines .start (lines text)).flatMap lostOf

variable {keep : Char → Bool} {line : List Char}

/-! ### Lines -/

/-- A line is what is kept of it, between the blanks that it loses. There are none at the end if the
    line leaves a raw element open. -/
theorem exists_eq_keptText (line : List Char) :
    ∃ front back, line = front ++ keptText line ++ back ∧ lostBlanks line = front ++ back ∧
      (∀ c ∈ front ++ back, isBlank c = true) ∧
      ((shapeOf (trim line)).raw.isSome = true → back = []) := by
  have hstart : line = line.takeWhile isBlank ++ trimStart line :=
    (List.takeWhile_append_dropWhile ..).symm
  have hfront : ∀ c ∈ line.takeWhile isBlank, isBlank c = true :=
    fun _ hc => List.mem_takeWhile_imp hc
  unfold keptText lostBlanks
  by_cases hraw : (shapeOf (trim line)).raw.isSome = true
  · simp only [if_pos hraw, List.append_nil]
    refine ⟨_, [], by rwa [List.append_nil], by rw [List.append_nil], ?_, fun _ => rfl⟩
    rwa [List.append_nil]
  · obtain ⟨back, hback, htrim⟩ := exists_trimStart_eq_trim line
    have hdrop : (trimStart line).drop (trim line).length = back := by rw [htrim, List.drop_left]
    simp only [if_neg hraw, hdrop]
    refine ⟨_, back, ?_, rfl, ?_, fun h => absurd h hraw⟩
    · rw [List.append_assoc, ← htrim]
      exact hstart
    · intro c hc
      exact (List.mem_append.mp hc).elim (hfront c) (hback c)

/-- **One line.** If spaces and line feeds do not count, the text that a line becomes has the
    characters of a part of the line, and the rest of the line is lost. -/
theorem indentLine_keeps (hspace : keep ' ' = false) (hfeed : keep '\n' = false) (width : Nat)
    (state : IndentState) (line : List Char) :
    ∃ front kept back, line = front ++ kept ++ back ∧
      lostOf (state.raw.isSome, line) = front ++ back ∧
      (indentLine width state line).1.filter keep = kept.filter keep := by
  have hend : ['\n'].filter keep = [] := by simp [hfeed]
  cases hraw : state.raw with
  | some name =>
    refine ⟨[], line, [], by simp, rfl, ?_⟩
    rw [indentLine_of_raw hraw, List.filter_append, hend, List.append_nil]
  | none =>
    obtain ⟨front, back, hline, hlost, -, -⟩ := exists_eq_keptText line
    refine ⟨front, keptText line, back, hline, hlost, ?_⟩
    by_cases hblank : trim line = []
    · have hkept : keptText line = [] := by
        rw [keptText, hblank, shapeOf_nil]
        rfl
      rw [indentLine_of_blank hraw hblank, hkept]
      cases state.previousBlank with
      | true => rfl
      | false => exact hend
    · have hindent : ∀ count, (List.replicate count ' ').filter keep = [] := by
        intro count
        rw [List.filter_replicate, hspace]
        rfl
      rw [indentLine_of_text hraw hblank]
      simp only [List.filter_append, hindent, hend, List.nil_append, List.append_nil]

/-- **All lines.** The characters that count are left in their order, and those that are missing are
    as many as the lost ones. -/
theorem filter_indentLines (hspace : keep ' ' = false) (hfeed : keep '\n' = false) (width : Nat)
    (state : IndentState) (source : List (List Char)) :
    ((indentLines width state source).filter keep).Sublist (source.flatMap (List.filter keep)) ∧
      (source.flatMap (List.filter keep)).length =
        ((indentLines width state source).filter keep).length +
          (((trackedLines state source).flatMap lostOf).filter keep).length := by
  induction source generalizing state with
  | nil => exact ⟨List.Sublist.refl _, rfl⟩
  | cons line source ih =>
    obtain ⟨hsublist, hlength⟩ := ih (state.next line)
    obtain ⟨front, kept, back, hline, hlost, htext⟩ :=
      indentLine_keeps hspace hfeed width state line
    have hkept : (kept.filter keep).Sublist (line.filter keep) := by
      rw [hline]
      exact ((List.sublist_append_right ..).trans (List.sublist_append_left ..)).filter keep
    have hcount : (line.filter keep).length =
        (kept.filter keep).length + ((front ++ back).filter keep).length := by
      rw [hline]
      simp only [List.filter_append, List.length_append]
      omega
    rw [indentLines_cons, trackedLines, List.flatMap_cons, List.flatMap_cons, List.filter_append,
      List.filter_append, htext, hlost]
    refine ⟨hkept.append hsublist, ?_⟩
    simp only [List.length_append, hcount, hlength]
    omega

/-! ### Texts -/

/-- The characters of a text that count are kept if none of them is lost, and only then. -/
theorem filter_indent_eq_iff (keep : Char → Bool) (hspace : keep ' ' = false)
    (hfeed : keep '\n' = false) (hreturn : keep '\r' = false) (width : Nat) (text : List Char) :
    ((indent width text).filter keep).Sublist (text.filter keep) ∧
      ((indent width text).filter keep = text.filter keep ↔ ∀ c ∈ lostIn text, keep c = false) := by
  obtain ⟨hsublist, hlength⟩ := filter_indentLines hspace hfeed width .start (lines text)
  rw [flatMap_filter_lines hfeed hreturn] at hsublist hlength
  have hnone : (lostIn text).filter keep = [] ↔ ∀ c ∈ lostIn text, keep c = false := by
    simp only [List.filter_eq_nil_iff, Bool.not_eq_true]
  refine ⟨hsublist, ?_⟩
  rw [← hnone, ← List.length_eq_zero_iff]
  unfold indent lostIn
  constructor
  · intro heq
    rw [heq] at hlength
    omega
  · intro hzero
    exact hsublist.eq_of_length (by omega)

/-- Indenting changes nothing but blanks, in the sense of White_Space. -/
theorem withoutBlanks_indent (width : Nat) (text : List Char) :
    withoutBlanks (indent width text) = withoutBlanks text := by
  obtain ⟨-, hiff⟩ := filter_indent_eq_iff (fun c => !isBlank c) (by decide) (by decide)
    (by decide) width text
  refine hiff.mpr fun c hc => ?_
  obtain ⟨entry, -, hlost⟩ := List.mem_flatMap.mp hc
  unfold lostOf at hlost
  split at hlost
  · cases hlost
  · obtain ⟨front, back, -, heq, hblanks, -⟩ := exists_eq_keptText entry.2
    rw [hblanks c (heq ▸ hlost)]
    rfl

/-- **Changed blanks.** Indenting changes nothing but blanks, in the sense of White_Space. Of the
    characters that are no blanks of markup it adds none and keeps the order, and it keeps all of them
    just if the blanks that lines lose at their ends are blanks of markup. -/
theorem indent_changes_blanks (width : Nat) (text : List Char) :
    withoutBlanks (indent width text) = withoutBlanks text ∧
      (contentOf (indent width text)).Sublist (contentOf text) ∧
      (contentOf (indent width text) = contentOf text ↔
        ∀ c ∈ lostIn text, isMarkupBlank c = true) := by
  obtain ⟨hsublist, hcontent⟩ := filter_indent_eq_iff (fun c => !isMarkupBlank c) (by decide)
    (by decide) (by decide) width text
  simp only [Bool.not_eq_false'] at hcontent
  exact ⟨withoutBlanks_indent width text, hsublist, hcontent⟩

/-- A paragraph that starts with a no-break space and ends with an ideographic one. -/
def spacedText : List Char :=
  "<p>\n\u00a0x\u3000\n</p>".toList

/-- Both are content, and both are lost. -/
theorem indent_drops_content :
    indent 2 spacedText = "<p>\n  x\n</p>\n".toList ∧
      contentOf (indent 2 spacedText) ≠ contentOf spacedText := by
  decide +kernel

end PageLoom
