import PageLoom.Proofs.Indent.Counts

namespace PageLoom

/-!
# Indents and the depth of elements

On well-nested markup the indent of a line is the number of elements that are open in front of it,
less the elements that end at its start.

* `Tracks` — the lines that are indented, next to the lines of the document;
* `IndentState.At`, `Tracks.state_at` — the indenter's state is what is open in the document;
* `IndentedByDepth`, `IndentState.Unclipped` — what is said about one line;
* `indent_follows_depth` — all lines of well-nested markup.
-/

variable {width depth : Nat} {nesting last : Nesting} {line : List Spot} {kept : List Char}
  {state : IndentState}

/-! ### Trimmed spots -/

/-- The last character of a tag is `>`. -/
theorem Symbol.toText_cases (symbol : Symbol) :
    (∃ c, symbol = .char c) ∨ ∃ inside, symbol.toText = '<' :: (inside ++ ['>']) := by
  cases symbol with
  | char c => exact .inl ⟨c, rfl⟩
  | lone tag => exact .inr ⟨_, rfl⟩
  | opening tag => exact .inr ⟨_, rfl⟩
  | closing tag => exact .inr ⟨'/' :: tag.name, rfl⟩

/-- A character at the end of spots does not change which closing tags are in front. -/
theorem leadingEnds_append_char (line : List Spot) (nesting : Nesting) (c : Char) :
    leadingEnds (line ++ [⟨nesting, .char c⟩]) = leadingEnds line := by
  induction line with
  | nil => rfl
  | cons spot line ih =>
    obtain ⟨spotNesting, symbol⟩ := spot
    cases symbol with
    | char _ => exact ih
    | closing _ => exact congrArg (· + 1) ih
    | lone _ => rfl
    | opening _ => rfl

/-- Outside of raw elements the text without the blanks in front is that of fewer spots. -/
theorem Runs.exists_trimStart (h : Runs ⟨depth, none⟩ line last) :
    ∃ core, Runs ⟨depth, none⟩ core last ∧ spotsText core = trimStart (spotsText line) ∧
      leadingEnds core = leadingEnds line := by
  induction line with
  | nil => exact ⟨[], h, rfl, rfl⟩
  | cons spot line ih =>
    obtain ⟨spotNesting, symbol⟩ := spot
    rcases symbol.toText_cases with ⟨c, rfl⟩ | ⟨inside, htext⟩
    · by_cases hblank : isBlank c = true
      · obtain ⟨core, hcore, htrim, hends⟩ := ih h.tail_char
        refine ⟨core, hcore, htrim.trans ?_, hends⟩
        rw [spotsText_cons]
        exact (List.dropWhile_cons_of_pos hblank).symm
      · exact ⟨_, h, (List.dropWhile_cons_of_neg hblank).symm, rfl⟩
    · refine ⟨_, h, ?_, rfl⟩
      rw [spotsText_cons, htext]
      exact (List.dropWhile_cons_of_neg (by decide)).symm

/-- The text without the blanks at the end is that of fewer spots. -/
theorem Runs.exists_trimEnd (h : Runs nesting line last) :
    ∃ core, Runs nesting core last ∧ spotsText core = trimEnd (spotsText line) ∧
      leadingEnds core = leadingEnds line := by
  induction line using List.reverseRecOn with
  | nil => exact ⟨[], h, rfl, rfl⟩
  | append_singleton line spot ih =>
    obtain ⟨spotNesting, symbol⟩ := spot
    have hkept : ∀ c, (∃ front, spotsText (line ++ [⟨spotNesting, symbol⟩]) = front ++ [c]) →
        isBlank c = false → trimEnd (spotsText (line ++ [⟨spotNesting, symbol⟩])) =
          spotsText (line ++ [⟨spotNesting, symbol⟩]) := by
      rintro c ⟨front, hfront⟩ hc
      rw [hfront, trimEnd, List.reverse_append, List.reverse_singleton, List.singleton_append,
        List.dropWhile_cons_of_neg (by simp [hc]), List.reverse_cons, List.reverse_reverse]
    rcases symbol.toText_cases with ⟨c, rfl⟩ | ⟨inside, htext⟩
    · have htext : spotsText (line ++ [⟨spotNesting, .char c⟩]) = spotsText line ++ [c] :=
        spotsText_append ..
      by_cases hblank : isBlank c = true
      · obtain ⟨core, hcore, htrim, hends⟩ := ih h.dropLast_char
        refine ⟨core, hcore, ?_, hends.trans (leadingEnds_append_char ..).symm⟩
        rw [htrim, htext, trimEnd_append _ (by simpa using hblank)]
      · exact ⟨_, h, (hkept c ⟨_, htext⟩ (by simpa using hblank)).symm, rfl⟩
    · refine ⟨_, h, (hkept '>' ⟨spotsText line ++ '<' :: inside, ?_⟩ (by decide)).symm, rfl⟩
      rw [spotsText_append, spotsText_cons, htext, spotsText_nil]
      simp only [List.append_assoc, List.cons_append, List.append_nil]

/-- **Trimmed spots.** Outside of raw elements the trimmed text is that of fewer spots. -/
theorem Runs.exists_trim (h : Runs ⟨depth, none⟩ line last) :
    ∃ core, Runs ⟨depth, none⟩ core last ∧ spotsText core = trim (spotsText line) ∧
      leadingEnds core = leadingEnds line := by
  obtain ⟨start, hstart, htrimStart, hstartEnds⟩ := h.exists_trimStart
  obtain ⟨core, hcore, htrimEnd, hcoreEnds⟩ := hstart.exists_trimEnd
  exact ⟨core, hcore, by rw [htrimEnd, htrimStart, trim], hcoreEnds.trans hstartEnds⟩

/-- So the shape of the trimmed text counts the tags of all spots. -/
theorem Runs.counts_trim (h : Runs ⟨depth, none⟩ line last) :
    Counts (['<', '/'].isPrefixOf (trim (spotsText line))) depth line last
      (shapeOf (trim (spotsText line))) := by
  obtain ⟨core, hcore, htext, hends⟩ := h.exists_trim
  obtain ⟨hraw, hbalance, hleading, hle⟩ :=
    hcore.counts (['<', '/'].isPrefixOf (trim (spotsText line)))
  rw [htext] at hraw hbalance hleading
  rw [hends] at hleading hle
  exact ⟨hraw, hbalance, hleading, hle⟩

/-! ### States -/

/-- The indenter takes for open what is open in the document. -/
def IndentState.At (state : IndentState) (nesting : Nesting) : Prop :=
  state.depth = nesting.depth ∧ state.raw = nesting.raw

/-- No subtraction for the line goes below zero: neither for its indent, nor for the depth behind
    it, nor for the end of a raw element. -/
def IndentState.Unclipped (state : IndentState) (line : List Char) : Prop :=
  match state.raw with
  | none =>
    (shapeOf (trim line)).leadingCloses ≤ state.depth ∧
      (shapeOf (trim line)).closes ≤ state.depth + (shapeOf (trim line)).opens
  | some name =>
    closeIndex? name line ≠ none → 1 ≤ state.depth ∧
      (shapeOf (state.readable line)).closes ≤
        state.depth - 1 + (shapeOf (state.readable line)).opens

/-- Behind a line the indenter still takes for open what is open. -/
theorem Runs.next_at (h : Runs nesting line last) (hstate : state.At nesting) :
    (state.next (spotsText line)).At last ∧ state.Unclipped (spotsText line) := by
  obtain ⟨depth, raw⟩ := nesting
  obtain ⟨hdepth, hraw⟩ := hstate
  simp only at hdepth hraw
  unfold IndentState.At IndentState.Unclipped
  rw [← indentLine_snd 0, hraw, hdepth]
  cases raw with
  | none =>
    obtain ⟨hlast, hbalance, hleading, hle⟩ := h.counts_trim
    refine ⟨?_, ?_, by omega⟩
    · by_cases hblank : trim (spotsText line) = []
      · rw [indentLine_of_blank hraw hblank]
        rw [hblank, shapeOf_nil] at hlast hbalance
        exact ⟨hdepth.trans hbalance, hraw.trans hlast⟩
      · rw [indentLine_of_text hraw hblank]
        refine ⟨?_, hlast⟩
        rw [hdepth]
        exact Nat.sub_eq_of_eq_add hbalance
    · rw [hleading]
      split
      · exact hle
      · exact Nat.zero_le _
  | some name =>
    rw [indentLine_of_raw hraw]
    unfold IndentState.afterRaw IndentState.readable
    rw [hraw]
    rcases h.raw_cases with
      ⟨hindex, rfl⟩ | ⟨outer, rest, place, tag, rfl, hindex, hdrop, hrest, -⟩
    · simp only [hindex]
      exact ⟨⟨hdepth, trivial⟩, fun hne => absurd rfl hne⟩
    · have htail : (((spotsText line).drop place).dropWhile (· ≠ '>')).drop 1 = spotsText rest := by
        rw [hdrop, drop_dropWhile_closing]
      obtain ⟨hlast, hbalance, -, -⟩ := hrest.counts (['<', '/'].isPrefixOf (spotsText rest))
      simp only [hindex, htail, hdepth]
      refine ⟨⟨Nat.sub_eq_of_eq_add hbalance, hlast⟩, fun _ => ⟨Nat.succ_pos _, ?_⟩⟩
      rw [Nat.add_sub_cancel]
      exact Nat.le.intro ((Nat.add_comm ..).trans hbalance.symm)

/-! ### Lines of a document -/

/-- No line feed stands in spots of which none ends a line. -/
theorem feed_not_mem_spotsText (h : ∀ spot ∈ line, spot.isFeed = false) :
    '\n' ∉ spotsText line := by
  intro hmem
  obtain ⟨⟨spotNesting, symbol⟩, hspot, hmem⟩ := List.mem_flatMap.mp hmem
  have hfeed := h _ hspot
  have htag : ∀ tag : TagText, '\n' ∉ tag.opening ∧ '\n' ∉ tag.closing := by
    intro tag
    have hname : '\n' ∉ tag.name := fun hmem => absurd (tag.name_chars _ hmem) (by decide)
    have hattributes := tag.attributes_feed
    simp [TagText.opening, TagText.closing, hname, hattributes]
  cases symbol with
  | char c =>
    rw [List.mem_singleton.mp hmem |>.symm] at hfeed
    cases hfeed
  | lone tag => exact (htag tag).1 hmem
  | opening tag => exact (htag tag).1 hmem
  | closing tag => exact (htag tag).2 hmem

/-- The line that is read differs from the one in the document by the carriage return at its end. -/
def IsKept (line : List Spot) (kept : List Char) : Prop :=
  spotsText line = kept ∨ spotsText line = kept ++ ['\r']

/-- The carriage return is blank. -/
theorem IsKept.trim_eq (h : IsKept line kept) : trim (spotsText line) = trim kept := by
  rcases h with htext | htext
  · rw [htext]
  · rw [htext]
    exact trim_append_return kept

/-- Without the carriage return the line has fewer spots. -/
theorem Runs.exists_kept (h : Runs nesting line last) (hkept : IsKept line kept) :
    ∃ core, Runs nesting core last ∧ spotsText core = kept ∧
      leadingEnds core = leadingEnds line := by
  rcases hkept with htext | htext
  · exact ⟨line, h, htext, rfl⟩
  · cases line using List.reverseRecOn with
    | nil => simp at htext
    | append_singleton line spot =>
      obtain ⟨spotNesting, symbol⟩ := spot
      rw [spotsText_append, spotsText_cons, spotsText_nil, List.append_nil] at htext
      rcases symbol.toText_cases with ⟨c, rfl⟩ | ⟨inside, hsymbol⟩
      · obtain ⟨hline, -⟩ := List.append_inj' htext rfl
        exact ⟨line, h.dropLast_char, hline, (leadingEnds_append_char ..).symm⟩
      · rw [hsymbol, ← List.cons_append, ← List.append_assoc] at htext
        exact absurd (List.append_inj' htext rfl).2 (by decide)

/-- The lines of a document next to the lines that are read, from the elements open in front of the
    first one to those open behind the last one. An empty last line is not read. -/
inductive Tracks : Nesting → List (List Spot) → List (List Char) → Nesting → Prop
  | nil {nesting : Nesting} : Tracks nesting [] [] nesting
  | empty {nesting : Nesting} : Tracks nesting [[]] [] nesting
  | cons {nesting between last : Nesting} {line : List Spot} {kept : List Char}
      {docs : List (List Spot)} {texts : List (List Char)} :
      Runs nesting line between → IsKept line kept → Tracks between docs texts last →
      Tracks nesting (line :: docs) (kept :: texts) last

/-- **Lines.** The lines of the spots are those of their text. -/
theorem Runs.tracks {spots : List Spot} (h : Runs nesting spots last) :
    Tracks nesting (spots.splitOnP Spot.isFeed) (lines (spotsText spots)) last := by
  induction hlength : spots.length using Nat.strong_induction_on generalizing spots nesting with
  | _ n ih =>
    subst hlength
    cases hfind : spots.find? Spot.isFeed with
    | none =>
      have hnone : ∀ spot ∈ spots, spot.isFeed = false := by simpa using hfind
      rw [List.splitOnP_eq_singleton hnone, lines_of_not_mem (feed_not_mem_spotsText hnone)]
      cases h with
      | nil => exact .empty
      | cons hmoves hend hrest =>
        rename_i symbol rest
        have htext : (spotsText (⟨nesting, symbol⟩ :: rest)).isEmpty = false := by
          rw [spotsText_cons]
          rcases symbol.toText_cases with ⟨c, rfl⟩ | ⟨inside, hsymbol⟩
          · rfl
          · rw [hsymbol]
            rfl
        rw [htext]
        exact .cons (.cons hmoves hend hrest) (.inl rfl) .nil
    | some feed =>
      obtain ⟨hfeed, front, rest, rfl, hfront⟩ := List.find?_eq_some_iff_append.mp hfind
      have hfront : ∀ spot ∈ front, spot.isFeed = false := by simpa using hfront
      obtain ⟨feedNesting, symbol⟩ := feed
      obtain rfl : symbol = .char '\n' := by
        cases symbol with
        | char c => exact congrArg Symbol.char (of_decide_eq_true hfeed)
        | lone _ => cases hfeed
        | opening _ => cases hfeed
        | closing _ => cases hfeed
      obtain ⟨between, hruns, hbehind⟩ := h.of_append
      obtain ⟨kept, hkept, hlines⟩ :=
        exists_lines_append (feed_not_mem_spotsText hfront) (spotsText rest)
      rw [List.splitOnP_append_cons_of_forall_mem hfront _ hfeed, spotsText_append, spotsText_cons,
        Symbol.toText, List.singleton_append, hlines]
      refine .cons hruns hkept (ih _ ?_ hbehind.tail_char rfl)
      rw [List.length_append, List.length_cons]
      omega

/-- **States.** The indenter's state agrees with the document behind all lines, and in front of
    each of them nothing is cut off. -/
theorem Tracks.state_at {docs : List (List Spot)} {texts : List (List Char)}
    (h : Tracks nesting docs texts last) (hstate : state.At nesting) :
    (state.afterLines texts).At last ∧
      ∀ before text after, texts = before ++ text :: after →
        (state.afterLines before).Unclipped text := by
  induction h generalizing state with
  | nil => exact ⟨hstate, by simp⟩
  | empty => exact ⟨hstate, by simp⟩
  | cons hruns hkept _ ih =>
    obtain ⟨core, hcore, rfl, -⟩ := hruns.exists_kept hkept
    obtain ⟨hnext, hunclipped⟩ := hcore.next_at hstate
    obtain ⟨hlast, hbehind⟩ := ih hnext
    refine ⟨hlast, fun before text after hcut => ?_⟩
    cases before with
    | nil =>
      obtain ⟨rfl, -⟩ := List.cons.inj hcut
      exact hunclipped
    | cons first before =>
      obtain ⟨rfl, hrest⟩ := List.cons.inj hcut
      exact hbehind before text after hrest

/-! ### Indents -/

/-- The number of elements that end at the start of a line: if the trimmed line starts with a
    closing tag, the closing tags in front of the first other one. -/
def endsAtStart (line : List Spot) : Nat :=
  if ['<', '/'].isPrefixOf (trim (spotsText line)) then leadingEnds line else 0

/-- The text of the line is kept, but for blanks at its ends. If no raw element is open in front of
    the line, it stands behind `width` spaces for each element that is open there and does not end
    at the start of the line. A line that starts with the end of a raw element starts in its body. -/
def IndentedByDepth (width : Nat) (line : List Spot) (result : List Char) : Prop :=
  trim result = trim (spotsText line) ∧
    ∀ first ∈ line.head?, first.nesting.raw = none →
      endsAtStart line ≤ first.nesting.depth ∧
        (result.takeWhile (· = ' ')).length =
          width * (first.nesting.depth - endsAtStart line)

/-- The text behind an indent starts with a character that is not blank. -/
theorem exists_keptText_eq_cons (h : trim kept ≠ []) :
    ∃ c rest, keptText kept = c :: rest ∧ isBlank c = false := by
  obtain ⟨back, -, hstart⟩ := exists_trimStart_eq_trim kept
  obtain ⟨c, rest, htrim⟩ := List.exists_cons_of_ne_nil h
  have hhead := List.head?_dropWhile_not isBlank kept
  rw [← trimStart, hstart, htrim] at hhead
  have hc : isBlank c = false := by simpa using hhead
  unfold keptText
  split
  · exact ⟨c, rest ++ back, by rw [hstart, htrim]; rfl, hc⟩
  · exact ⟨c, rest, htrim, hc⟩

/-- The spaces in front of a line outside of raw elements are its indent. -/
theorem length_takeWhile_indentLine {emitted : List Char} (hraw : state.raw = none)
    (htext : trim kept ≠ []) (h : (indentLine width state kept).1 = emitted ++ ['\n']) :
    (emitted.takeWhile (· = ' ')).length =
      (state.depth - (shapeOf (trim kept)).leadingCloses) * width := by
  rw [indentLine_of_text hraw htext] at h
  obtain ⟨rfl, -⟩ := List.append_inj' h.symm rfl
  obtain ⟨c, rest, hkept, hc⟩ := exists_keptText_eq_cons htext
  have hspace : decide (c = ' ') = false := by
    rw [decide_eq_false_iff_not]
    rintro rfl
    exact absurd hc (by decide)
  rw [List.takeWhile_append_of_pos (by simp), hkept, List.takeWhile_cons, hspace]
  simp

/-- Outside of raw elements that is the depth, less the elements that end at the line's start. -/
theorem Runs.length_takeWhile {emitted : List Char} (h : Runs ⟨depth, none⟩ line last)
    (hstate : state.At ⟨depth, none⟩) (hkept : IsKept line kept) (htext : trim kept ≠ [])
    (hemitted : (indentLine width state kept).1 = emitted ++ ['\n']) :
    endsAtStart line ≤ depth ∧
      (emitted.takeWhile (· = ' ')).length = width * (depth - endsAtStart line) := by
  obtain ⟨-, -, hleading, hle⟩ := h.counts_trim
  rw [hkept.trim_eq] at hleading
  have hends : (shapeOf (trim kept)).leadingCloses = endsAtStart line := by
    rw [hleading, endsAtStart, hkept.trim_eq]
  constructor
  · rw [← hends, hleading]
    split
    · exact hle
    · exact Nat.zero_le _
  · rw [length_takeWhile_indentLine hstate.2 htext hemitted, hstate.1, hends, Nat.mul_comm]

/-- A carriage return behind a line does not belong to its indent. -/
theorem takeWhile_append_return (text : List Char) :
    (text ++ ['\r']).takeWhile (· = ' ') = text.takeWhile (· = ' ') := by
  rw [List.takeWhile_append]
  split
  · rename_i hall
    rw [List.takeWhile_cons_of_neg (by decide), List.append_nil]
    exact ((List.takeWhile_prefix _).eq_of_length hall).symm
  · rfl

/-- **One line.** Reading on behind an emitted line gives that line, indented by depth, unless the
    line is blank. -/
theorem Runs.indented (h : Runs nesting line last) (hstate : state.At nesting)
    (hkept : IsKept line kept) (hfeed : '\n' ∉ kept) (width : Nat) (more : List Char) :
    ∃ results, lines ((indentLine width state kept).1 ++ more) = results ++ lines more ∧
      List.Forall₂ (IndentedByDepth width)
        ([line].filter fun line => trim (spotsText line) ≠ [])
        (results.filter fun line => trim line ≠ []) := by
  rcases indentLine_emits width state hfeed with
    ⟨hgap, htext, -⟩ | ⟨-, -, emitted, hemitted, htrim, htext⟩
  · have hblank : trim kept = [] := trim_of_isGap hgap
    rw [htext, List.filter_singleton, hkept.trim_eq, hblank]
    split
    · exact ⟨[], rfl, .nil⟩
    · exact ⟨[[]], lines_feed more, .nil⟩
  · obtain ⟨result, hresult, hlines⟩ := exists_lines_append hemitted more
    have hresultTrim : trim result = trim kept := by
      rw [← htrim]
      rcases hresult with rfl | rfl
      · rfl
      · exact (trim_append_return result).symm
    refine ⟨[result], by rw [htext, List.append_assoc]; exact hlines, ?_⟩
    by_cases hblank : trim kept = []
    · rw [List.filter_singleton, List.filter_singleton, hkept.trim_eq, hresultTrim, hblank]
      exact .nil
    rw [List.filter_singleton, List.filter_singleton, hkept.trim_eq, hresultTrim,
      decide_eq_true hblank]
    refine .cons ⟨hresultTrim.trans hkept.trim_eq.symm, fun first hfirst hnone => ?_⟩ .nil
    cases h with
    | nil => cases hfirst
    | cons hmoves hend hrest =>
      obtain rfl := Option.some.inj hfirst
      obtain ⟨depth, raw⟩ := nesting
      obtain rfl : raw = none := hnone
      have hindent := Runs.length_takeWhile (.cons hmoves hend hrest) hstate hkept hblank htext
      rcases hresult with rfl | rfl
      · exact hindent
      · rw [takeWhile_append_return] at hindent
        exact hindent

/-- **All lines.** The lines that are not blank are those of the document, indented by depth. -/
theorem Tracks.indented {docs : List (List Spot)} {texts : List (List Char)}
    (h : Tracks nesting docs texts last) (hstate : state.At nesting)
    (hfeed : ∀ text ∈ texts, '\n' ∉ text) (width : Nat) :
    List.Forall₂ (IndentedByDepth width)
      (docs.filter fun line => trim (spotsText line) ≠ [])
      ((lines (indentLines width state texts)).filter fun line => trim line ≠ []) := by
  induction h generalizing state with
  | nil => exact .nil
  | empty => exact .nil
  | cons hruns hkept _ ih =>
    obtain ⟨hline, hrest⟩ := List.forall_mem_cons.mp hfeed
    obtain ⟨core, hcore, hcoreText, -⟩ := hruns.exists_kept hkept
    have hnext := (hcore.next_at hstate).1
    rw [hcoreText] at hnext
    obtain ⟨results, hlines, hresults⟩ := hruns.indented hstate hkept hline width
      (indentLines width (state.next _) _)
    rw [indentLines_cons, hlines, ← List.singleton_append, List.filter_append, List.filter_append]
    exact List.rel_append hresults (ih hnext hrest)

/-- **Depth.** On well-nested markup every line that is not blank and does not start in a raw body
    is indented by the number of elements that are open in front of it, less those that end at its
    start. No subtraction is cut off at zero on the way, and behind the last line none is open. -/
theorem indent_follows_depth (width : Nat) (markup : Markup) :
    List.Forall₂ (IndentedByDepth width)
        (markup.docLines.filter fun line => trim (spotsText line) ≠ [])
        ((lines (indent width markup.toText)).filter fun line => trim line ≠ []) ∧
      (∀ before line after, lines markup.toText = before ++ line :: after →
        (IndentState.start.afterLines before).Unclipped line) ∧
      (IndentState.start.afterLines (lines markup.toText)).depth = 0 := by
  have htracks := (markup.runs_spots 0).tracks
  rw [markup.spotsText_spots] at htracks
  have hstart : IndentState.start.At ⟨0, none⟩ := ⟨rfl, rfl⟩
  obtain ⟨hlast, hunclipped⟩ := htracks.state_at hstart
  exact ⟨htracks.indented hstart (fun _ => feed_not_mem_of_mem_lines) width, hunclipped, hlast.1⟩

/-- A list with a line that ends one item and starts the next one. -/
def nestedList : Markup :=
  let list : TagText :=
    ⟨['u', 'l'], [], rfl, List.all_eq_true.mp (by decide), by simp, by simp, by simp⟩
  let item : TagText :=
    ⟨['L', 'I'], " id=<".toList, rfl, List.all_eq_true.mp (by decide), by simp; decide, by decide,
      by decide⟩
  .element list ⟨by decide, by decide, rfl⟩
    (.text ['\n'] (by decide)
      (.element item ⟨by decide, by decide, rfl⟩ (.text ['a', '\n'] (by decide) .nil)
        (.element item ⟨by decide, by decide, rfl⟩ (.text ['b'] (by decide) .nil)
          (.text ['\n'] (by decide) .nil)))) .nil

example : indent 2 nestedList.toText =
    "<ul>\n  <LI id=<>a\n  </LI><LI id=<>b</LI>\n</ul>\n".toList := by decide +kernel

end PageLoom
