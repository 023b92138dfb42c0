namespace PageLoom

/-!
# Lines of a text

A line ends at a line feed, and a carriage return right before the line feed belongs to the
ending. What stands after the last line feed is a line of its own unless it is empty.

* `lines` — the lines of a text without their endings;
* `exists_lines_append`, `lines_append_line` — the first line of a text that starts with a line and
  its line feed;
* `exists_lines_cons` — the first line of a text that starts with a part of a line;
* `lines_append_feed` — the lines of a text in two parts, cut behind a line feed;
* `flatMap_filter_lines` — all characters but those of line endings are in the lines.
-/

/-- A line, given in reverse, without the carriage return that ends it. -/
private def withoutReturn : List Char → List Char
  | '\r' :: reversed => reversed
  | reversed => reversed

/-- The lines of a text whose current line has the characters `reversed` so far. -/
def linesFrom (reversed : List Char) : List Char → List (List Char)
  | [] => if reversed.isEmpty then [] else [reversed.reverse]
  | c :: rest =>
    if c = '\n' then (withoutReturn reversed).reverse :: linesFrom [] rest
    else linesFrom (c :: reversed) rest

/-- The lines of a text without their endings. -/
def lines (text : List Char) : List (List Char) :=
  linesFrom [] text

/-- What is left of a line without the carriage return at its end. -/
private theorem reverse_eq_withoutReturn (reversed : List Char) :
    reversed.reverse = (withoutReturn reversed).reverse ∨
      reversed.reverse = (withoutReturn reversed).reverse ++ ['\r'] := by
  unfold withoutReturn
  split
  · exact .inr List.reverse_cons
  · exact .inl rfl

/-- The characters of a line without its carriage return are characters of the line. -/
private theorem mem_of_mem_withoutReturn {c : Char} {reversed : List Char}
    (h : c ∈ withoutReturn reversed) : c ∈ reversed := by
  unfold withoutReturn at h
  split at h
  · exact List.mem_cons_of_mem _ h
  · exact h

/-- No line holds a line feed, if there is none in what was read of the current line. -/
theorem feed_not_mem_of_mem_linesFrom {reversed text line : List Char} (h : '\n' ∉ reversed)
    (hline : line ∈ linesFrom reversed text) : '\n' ∉ line := by
  induction text generalizing reversed with
  | nil =>
    rw [linesFrom] at hline
    split at hline
    · cases hline
    · rw [List.mem_singleton.mp hline, List.mem_reverse]
      exact h
  | cons c rest ih =>
    rw [linesFrom] at hline
    split at hline
    · rcases List.mem_cons.mp hline with rfl | hrest
      · intro hmem
        exact h (mem_of_mem_withoutReturn (List.mem_reverse.mp hmem))
      · exact ih List.not_mem_nil hrest
    · rename_i hc
      refine ih (fun hmem => ?_) hline
      exact (List.mem_cons.mp hmem).elim (fun heq => hc heq.symm) h

/-- No line of a text holds a line feed. -/
theorem feed_not_mem_of_mem_lines {text line : List Char} (h : line ∈ lines text) : '\n' ∉ line :=
  feed_not_mem_of_mem_linesFrom List.not_mem_nil h

/-- The lines of a text whose current line was read in part hold characters that were read, and
    characters of the text. -/
theorem mem_of_mem_linesFrom {c : Char} {reversed text line : List Char}
    (hline : line ∈ linesFrom reversed text) (h : c ∈ line) : c ∈ reversed ∨ c ∈ text := by
  induction text generalizing reversed with
  | nil =>
    rw [linesFrom] at hline
    split at hline
    · cases hline
    · rw [List.mem_singleton.mp hline, List.mem_reverse] at h
      exact .inl h
  | cons d rest ih =>
    rw [linesFrom] at hline
    split at hline
    · rcases List.mem_cons.mp hline with rfl | hrest
      · exact .inl (mem_of_mem_withoutReturn (List.mem_reverse.mp h))
      · exact .inr (List.mem_cons_of_mem _ ((ih hrest).resolve_left List.not_mem_nil))
    · rcases ih hline with hread | hrest
      · rcases List.mem_cons.mp hread with rfl | hread
        · exact .inr List.mem_cons_self
        · exact .inl hread
      · exact .inr (List.mem_cons_of_mem _ hrest)

/-- The lines of a text hold its characters. -/
theorem mem_of_mem_lines {c : Char} {text line : List Char} (hline : line ∈ lines text)
    (h : c ∈ line) : c ∈ text :=
  (mem_of_mem_linesFrom hline h).resolve_left List.not_mem_nil

/-- The characters in front of a line feed belong to the line that ends there. -/
theorem linesFrom_append {line : List Char} (h : '\n' ∉ line) (reversed rest : List Char) :
    linesFrom reversed (line ++ rest) = linesFrom (line.reverse ++ reversed) rest := by
  induction line generalizing reversed with
  | nil => rfl
  | cons c line ih =>
    obtain ⟨hc, hline⟩ := List.ne_and_not_mem_of_not_mem_cons h
    rw [List.cons_append, linesFrom, if_neg hc.symm, ih hline, List.reverse_cons, List.append_assoc]
    rfl

/-- **First line.** A text that starts with a line and its line feed has that line, less a carriage
    return at its end, in front of the lines of the rest. -/
theorem exists_lines_append {line : List Char} (h : '\n' ∉ line) (rest : List Char) :
    ∃ kept, (line = kept ∨ line = kept ++ ['\r']) ∧
      lines (line ++ '\n' :: rest) = kept :: lines rest := by
  rw [lines, linesFrom_append h, List.append_nil, linesFrom, if_pos rfl]
  have hkept := reverse_eq_withoutReturn line.reverse
  rw [List.reverse_reverse] at hkept
  exact ⟨_, hkept, rfl⟩

/-- A line that does not end with a carriage return is the first line as it is. -/
theorem lines_append_line {line : List Char} (hfeed : '\n' ∉ line)
    (hreturn : line.getLast? ≠ some '\r') (rest : List Char) :
    lines (line ++ '\n' :: rest) = line :: lines rest := by
  obtain ⟨kept, hkept, hlines⟩ := exists_lines_append hfeed rest
  rcases hkept with rfl | rfl
  · exact hlines
  · exact absurd List.getLast?_concat hreturn

/-- The lines in front of a line feed do not depend on what follows it. -/
private theorem linesFrom_append_feed (reversed front rest : List Char) :
    linesFrom reversed (front ++ ['\n'] ++ rest) =
      linesFrom reversed (front ++ ['\n']) ++ linesFrom [] rest := by
  induction front generalizing reversed with
  | nil => rfl
  | cons c front ih =>
    rw [List.cons_append, List.cons_append, linesFrom, linesFrom]
    split
    · rw [ih, List.cons_append]
    · exact ih (c :: reversed)

/-- **Cut.** A text that is cut at its start or behind a line feed has the lines of both parts. -/
theorem lines_append_feed {front : List Char} (h : front = [] ∨ ∃ more, front = more ++ ['\n'])
    (rest : List Char) : lines (front ++ rest) = lines front ++ lines rest := by
  rcases h with rfl | ⟨more, rfl⟩
  · rfl
  · exact linesFrom_append_feed [] more rest

/-- A text without a line feed is one line, unless it is empty. -/
theorem lines_of_not_mem {line : List Char} (h : '\n' ∉ line) :
    lines line = if line.isEmpty then [] else [line] := by
  have happend := linesFrom_append h [] []
  rw [List.append_nil, List.append_nil] at happend
  rw [lines, happend, linesFrom, List.isEmpty_reverse, List.reverse_reverse]

/-- The first line of a text starts with all that stands in front of the first line feed, but for a
    carriage return at its end. -/
theorem exists_lines_cons {front : List Char} (hfeed : '\n' ∉ front) (hne : front ≠ [])
    (hreturn : front.getLast? ≠ some '\r') (rest : List Char) :
    ∃ more after, lines (front ++ rest) = (front ++ more) :: after := by
  by_cases hrest : '\n' ∈ rest
  · obtain ⟨more, after, rfl, hmore⟩ := List.eq_append_cons_of_mem hrest
    have hline : '\n' ∉ front ++ more := by
      rw [List.mem_append]
      exact not_or.mpr ⟨hfeed, hmore⟩
    obtain ⟨kept, hkept, hlines⟩ := exists_lines_append hline after
    rw [← List.append_assoc, hlines]
    rcases hkept with rfl | hkept
    · exact ⟨more, _, rfl⟩
    -- The carriage return is not the end of the given front. So it is behind it.
    rcases List.eq_nil_or_concat more with rfl | ⟨init, last, rfl⟩
    · rw [List.append_nil] at hkept
      exact absurd (hkept ▸ List.getLast?_concat) hreturn
    · rw [List.concat_eq_append, ← List.append_assoc] at hkept
      exact ⟨init, _, by rw [(List.append_inj' hkept rfl).1]⟩
  · have hline : '\n' ∉ front ++ rest := by
      rw [List.mem_append]
      exact not_or.mpr ⟨hfeed, hrest⟩
    refine ⟨rest, [], ?_⟩
    rw [lines_of_not_mem hline, if_neg]
    simp [hne]

/-- The lines of a text whose current line was read in part have the characters that were read and
    those of the text, if carriage returns and line feeds do not count. -/
theorem flatMap_filter_linesFrom {keep : Char → Bool} (hfeed : keep '\n' = false)
    (hreturn : keep '\r' = false) (reversed text : List Char) :
    (linesFrom reversed text).flatMap (List.filter keep) =
      reversed.reverse.filter keep ++ text.filter keep := by
  induction text generalizing reversed with
  | nil =>
    rw [linesFrom]
    split
    · rename_i hnil
      rw [List.isEmpty_iff.mp hnil]
      rfl
    · simp
  | cons c rest ih =>
    rw [linesFrom]
    split
    · rename_i hc
      have hkept : (withoutReturn reversed).reverse.filter keep = reversed.reverse.filter keep := by
        rcases reverse_eq_withoutReturn reversed with h | h
        · rw [h]
        · rw [h, List.filter_append]
          simp [hreturn]
      rw [List.flatMap_cons, ih, hkept, hc, List.filter_cons, hfeed]
      rfl
    · rw [ih, List.reverse_cons, List.filter_append, List.append_assoc, ← List.filter_append]
      rfl

/-- **Characters.** The lines of a text have its characters, if carriage returns and line feeds do not
    count. -/
theorem flatMap_filter_lines {keep : Char → Bool} (hfeed : keep '\n' = false)
    (hreturn : keep '\r' = false) (text : List Char) :
    (lines text).flatMap (List.filter keep) = text.filter keep :=
  flatMap_filter_linesFrom hfeed hreturn [] text

end PageLoom
