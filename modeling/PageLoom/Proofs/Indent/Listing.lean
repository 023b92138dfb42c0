import PageLoom.Markdown.Render
import PageLoom.Proofs.Indent.Content
import PageLoom.Proofs.Indent.Counts
import PageLoom.Proofs.Page.Source

namespace PageLoom

/-!
# Listings in indented pages

The Markdown converter writes a block of code as a listing: the escaped code in a `code` element in a
`pre` element. The blanks of a listing can be seen on the page. Here a listing is followed from the
converter through an indented page. No line of escaped code holds the end of the `pre` element. So
once the indenter has come to its tag, it copies all lines up to the one with the end.

* `listing`, `renderBlock_code` — listings, and that the converter writes them;
* `ComesTo` — the indenter comes to a tag at a place of a text, outside of raw bodies;
* `exists_kept_end` — from a character on that is no blank, a line is kept;
* `prefix_indentLines_of_raw` — what is kept of the lines in a raw body;
* `listing_on_line`, `listing_over_lines` — listings on one line and on several ones;
* `document_keeps_listing` — a page keeps its listings.
-/

/-! ### Listings -/

/-- What follows the `pre` tag of a listing. -/
def listingBody (label code : List Char) : List Char :=
  "<code".toList ++ label ++ ['>'] ++ Markdown.escapeText code ++ "</code></pre>".toList

/-- Code as it is shown on a page. The label is what stands in the tag of the `code` element behind
    its name. -/
def listing (label code : List Char) : List Char :=
  "<pre>".toList ++ listingBody label code

/-- The label that tells the language of a block of code, if there is one. -/
def languageLabel (info : Option (List Char)) : List Char :=
  let language := (info.getD []).takeWhile (· ≠ ' ')
  if language.isEmpty then []
  else " class=\"language-".toList ++ Markdown.escapeAttribute language ++ ['"']

/-- The label of a language has no angles. -/
theorem angle_not_mem_languageLabel (info : Option (List Char)) :
    ∀ c ∈ languageLabel info, c ≠ '<' ∧ c ≠ '>' := by
  intro c hc
  unfold languageLabel at hc
  simp only at hc
  split at hc
  · cases hc
  · have hname : '<' ∉ " class=\"language-".toList ∧ '>' ∉ " class=\"language-".toList := by decide
    rcases List.mem_append.mp hc with hc | hc
    · exact (List.mem_append.mp hc).elim
        (fun hmem => ⟨ne_of_mem_of_not_mem hmem hname.1, ne_of_mem_of_not_mem hmem hname.2⟩)
        Markdown.mem_escapeAttribute
    · rw [List.mem_singleton.mp hc]
      decide

/-- **Converter.** A block of code is written as a listing on lines of its own. -/
theorem renderBlock_code (definitions : Markdown.Definitions) (tight : Bool)
    (page : Markdown.Output) (info : Option (List Char)) (code : List Char) :
    (Markdown.renderBlock definitions tight page (.code info code)).text.toList =
      page.freshLine.text.toList ++ (listing (languageLabel info) code ++ ['\n']) := by
  rw [Markdown.renderBlock]
  unfold listing listingBody languageLabel
  simp only [Markdown.Output.toList_write, Markdown.Output.toList_writeChars]
  -- Without a language, the tag of the code is closed at once.
  split
  all_goals
    simp only [Markdown.Output.toList_write, Markdown.Output.toList_writeChars, List.append_assoc]
    rfl

section Body

variable {label code : List Char}

/-- A line feed in a listing is one of the code. -/
theorem feed_not_mem_listing (hlabel : '\n' ∉ label) (hcode : '\n' ∉ Markdown.escapeText code) :
    '\n' ∉ listing label code := by
  unfold listing listingBody
  simp only [List.mem_append, not_or]
  exact ⟨by decide, ⟨⟨⟨by decide, hlabel⟩, by decide⟩, hcode⟩, by decide⟩

/-- Escaped code has no angle. -/
theorem angle_not_mem_escapeText (code : List Char) : '<' ∉ Markdown.escapeText code :=
  fun h => (Markdown.mem_escapeText h).1 rfl

/-- Escaped code has no carriage return if the code has none. -/
theorem return_not_mem_escapeText (hcode : '\r' ∉ code) : '\r' ∉ Markdown.escapeText code := by
  intro h
  obtain ⟨-, -, hmem⟩ := Markdown.mem_escapeText h
  exact hmem.elim hcode (by decide)

end Body

/-! ### Where the indenter comes to a tag -/

/-- Reading the three parts as one text, the indenter comes outside of raw bodies to the tag that is
    written in the middle. The lead are the lines in front of the line with the tag, and the inside is
    what the indenter reads of that line behind the tag. -/
def ComesTo (tag : Tag) (front written rest : List Char) : Prop :=
  ∃ lead opening line after inside blanks,
    front = lead ++ opening ∧ (lead = [] ∨ ∃ more, lead = more ++ ['\n']) ∧
      lines (opening ++ (written ++ rest)) = line :: after ∧
      line = opening ++ (written ++ (inside ++ blanks)) ∧ (∀ c ∈ blanks, isBlank c = true) ∧
      Meets ((IndentState.start.afterLines (lines lead)).readable line) tag inside

/-- The tag of a listing. -/
def listingTag : Tag :=
  ⟨false, "pre".toList, false⟩

/-! ### Kept parts of lines -/

variable {state : IndentState} {line : List Char}

/-- The characters that are no blanks, of two texts one after the other. -/
theorem withoutBlanks_append (text rest : List Char) :
    withoutBlanks (text ++ rest) = withoutBlanks text ++ withoutBlanks rest :=
  List.filter_append ..

/-- Blanks do not count. -/
theorem withoutBlanks_of_blank {blanks : List Char} (h : ∀ c ∈ blanks, isBlank c = true) :
    withoutBlanks blanks = [] := by
  refine List.filter_eq_nil_iff.mpr fun c hc => ?_
  rw [h c hc]
  decide

/-- A line that is not blank is put behind an indent, without the blanks at its ends. There are none at
    the end if a raw element is open behind the line. -/
theorem exists_kept_line (width : Nat) (state : IndentState) (htext : trim line ≠ []) :
    ∃ count front kept back, line = front ++ kept ++ back ∧
      (∀ c ∈ front ++ back, isBlank c = true) ∧
      ((state.next line).raw.isSome = true → back = []) ∧
      (indentLine width state line).1 = List.replicate count ' ' ++ kept ++ ['\n'] := by
  cases hraw : state.raw with
  | some name =>
    refine ⟨0, [], line, [], by simp, by simp, fun _ => rfl, ?_⟩
    rw [indentLine_of_raw hraw]
    rfl
  | none =>
    obtain ⟨front, back, hline, -, hblanks, hback⟩ := exists_eq_keptText line
    have hnext : (state.next line).raw = (shapeOf (trim line)).raw := by
      rw [← indentLine_snd 0, indentLine_of_text hraw htext]
    refine ⟨_, front, keptText line, back, hline, hblanks, ?_, by rw [indentLine_of_text hraw htext]⟩
    rw [hnext]
    exact hback

/-- **Kept end.** From a character on that is no blank, a line is kept, but for blanks at its end. There
    are none if a raw element is open behind the line. In front of the character only blanks change. -/
theorem exists_kept_end {c : Char} (width : Nat) (state : IndentState) (hc : isBlank c = false)
    (opening more : List Char) :
    ∃ before kept back,
      (indentLine width state (opening ++ c :: more)).1 = before ++ (c :: kept ++ ['\n']) ∧
      withoutBlanks before = withoutBlanks opening ∧ more = kept ++ back ∧
      (∀ d ∈ back, isBlank d = true) ∧
      ((state.next (opening ++ c :: more)).raw.isSome = true → back = []) := by
  have htext : trim (opening ++ c :: more) ≠ [] := by
    intro hnil
    obtain ⟨front, back, hfront, hback, hline⟩ := exists_eq_trim (opening ++ c :: more)
    rw [hnil, List.append_nil] at hline
    have hmem : c ∈ front ++ back := hline ▸ List.mem_append_right _ List.mem_cons_self
    have hblank := (List.mem_append.mp hmem).elim (hfront c) (hback c)
    rw [hc] at hblank
    cases hblank
  obtain ⟨count, front, kept, back, hline, hblanks, hopen, hemitted⟩ :=
    exists_kept_line width state htext
  obtain ⟨hfront, hback⟩ := List.forall_mem_append.mp hblanks
  rw [List.append_assoc] at hline
  obtain ⟨later, rfl, hkept⟩ := exists_eq_append_of_front hfront hc hline.symm
  obtain ⟨rest, hmore, rfl⟩ := exists_eq_append_of_back hback hc hkept
  refine ⟨List.replicate count ' ' ++ later, rest, back, ?_, ?_, hmore, hback, hopen⟩
  · rw [hemitted]
    simp only [List.append_assoc]
  · rw [withoutBlanks_append, withoutBlanks_append, withoutBlanks_of_blank hfront,
      withoutBlanks_of_blank fun _ => isBlank_of_mem_spaces]

/-! ### Raw bodies without an end -/

/-- A text without angles does not hold the end of an element. -/
theorem closeIndex?_of_not_mem {text : List Char} (h : '<' ∉ text) (name : List Char) :
    closeIndex? name text = none := by
  unfold closeIndex?
  refine indexOf?_eq_none_iff_not_infix.mpr fun hpart => ?_
  obtain ⟨c, hc, hlower⟩ := List.mem_map.mp (hpart.subset List.mem_cons_self)
  exact h (eq_angle_of_toLower hlower ▸ hc)

/-- A part of a text does not hold the end of an element if the text does not. -/
theorem closeIndex?_of_infix {part text name : List Char} (hpart : part <:+: text)
    (h : closeIndex? name text = none) : closeIndex? name part = none := by
  unfold closeIndex? at h ⊢
  refine indexOf?_eq_none_iff_not_infix.mpr fun hclose => ?_
  exact indexOf?_eq_none_iff_not_infix.mp h (hclose.trans (hpart.map Char.toLower))

/-- **Raw lines.** In a raw body a text without angles is copied, and so is what follows it up to the
    next line feed, whatever that is. -/
theorem prefix_indentLines_of_raw {name code : List Char} (width : Nat)
    (hstate : state.raw = some name) (hangle : '<' ∉ code) (hreturn : '\r' ∉ code)
    (ending rest : List Char) (hfeed : '\n' ∉ ending) (hne : ending ≠ [])
    (hlast : ending.getLast? ≠ some '\r') :
    code ++ ending <+: indentLines width state (lines (code ++ (ending ++ rest))) := by
  -- By induction on the length of the text, from one of its line feeds to the next.
  induction hlength : code.length using Nat.strongRecOn generalizing code state with
  | _ length ih =>
    subst hlength
    by_cases hcode : '\n' ∈ code
    · obtain ⟨first, more, rfl, hfirst⟩ := List.eq_append_cons_of_mem hcode
      rw [List.mem_append, List.mem_cons, not_or, not_or] at hangle hreturn
      have hend : first.getLast? ≠ some '\r' := fun h => hreturn.1 (List.mem_of_getLast? h)
      have hnext : (state.next first).raw = some name := by
        rw [← indentLine_snd 0, indentLine_of_raw hstate]
        unfold IndentState.afterRaw
        rw [closeIndex?_of_not_mem hangle.1]
      have hmore : more ++ ending <+:
          indentLines width (state.next first) (lines (more ++ (ending ++ rest))) := by
        refine ih more.length ?_ hnext hangle.2.2 hreturn.2.2 rfl
        rw [List.length_append, List.length_cons]
        omega
      have hcut : first ++ '\n' :: more ++ (ending ++ rest) =
          first ++ '\n' :: (more ++ (ending ++ rest)) := by
        rw [List.append_assoc, List.cons_append]
      rw [hcut, lines_append_line hfirst hend, indentLines_cons, indentLine_of_raw hstate]
      simp only [List.append_assoc, List.cons_append, List.nil_append]
      exact (List.prefix_append_right_inj first).mpr (List.cons_prefix_cons.mpr ⟨rfl, hmore⟩)
    · have hline : '\n' ∉ code ++ ending := by
        rw [List.mem_append]
        exact not_or.mpr ⟨hcode, hfeed⟩
      have hend : (code ++ ending).getLast? ≠ some '\r' := by
        rw [List.getLast?_append_of_ne_nil code hne]
        exact hlast
      obtain ⟨more, after, hlines⟩ := exists_lines_cons hline (by simp [hne]) hend rest
      rw [← List.append_assoc, hlines, indentLines_cons, indentLine_of_raw hstate]
      simp only [List.append_assoc, List.prefix_append_right_inj, List.prefix_append]

/-! ### Listings on their lines -/

section Listings

variable {opening label first more rest : List Char} {after : List (List Char)}

/-- How the first line of a listing starts. -/
def listingStart (label : List Char) : List Char :=
  "<pre>".toList ++ ("<code".toList ++ label ++ ['>'])

/-- How the last line of a listing ends. -/
def listingEnd : List Char :=
  "</code></pre>".toList

/-- A listing starts and ends with an angle. -/
theorem exists_listing_eq (label code : List Char) :
    ∃ middle, listing label code = '<' :: (middle ++ ['>']) := by
  refine ⟨"pre><code".toList ++ label ++ ['>'] ++ Markdown.escapeText code ++
    "</code></pre".toList, ?_⟩
  unfold listing listingBody
  simp

/-- **One line.** A line with a text that starts and ends with characters that are no blanks keeps the
    text, and in front of it only blanks change. -/
theorem line_keeps_text {c d : Char} {middle : List Char} (width : Nat) (state : IndentState)
    (hc : isBlank c = false) (hd : isBlank d = false) (opening ending : List Char) :
    ∃ before behind,
      (indentLine width state (opening ++ (c :: (middle ++ [d]) ++ ending))).1 =
        before ++ (c :: (middle ++ [d]) ++ behind) ∧
      withoutBlanks before = withoutBlanks opening := by
  obtain ⟨before, kept, back, htext, hbefore, hmore, hback, -⟩ :=
    exists_kept_end width state hc opening (middle ++ d :: ending)
  obtain ⟨later, -, rfl⟩ := exists_eq_append_of_back hback hd hmore.symm
  refine ⟨before, later ++ ['\n'], ?_, hbefore⟩
  simpa using htext

/-- **Listing on one line.** A line keeps a listing that is on it as a whole. -/
theorem listing_on_line {code : List Char} (width : Nat) (state : IndentState)
    (hfeed : '\n' ∉ opening ++ listing label code)
    (hlines : lines (opening ++ (listing label code ++ rest)) = line :: after) :
    ∃ before behind, (indentLine width state line).1 = before ++ (listing label code ++ behind) ∧
      withoutBlanks before = withoutBlanks opening := by
  obtain ⟨middle, hmiddle⟩ := exists_listing_eq label code
  have hlast : (opening ++ listing label code).getLast? = some '>' := by
    rw [hmiddle, ← List.cons_append, ← List.append_assoc]
    exact List.getLast?_concat
  have hne : opening ++ listing label code ≠ [] := by
    intro hnil
    rw [hnil] at hlast
    cases hlast
  have hreturn : (opening ++ listing label code).getLast? ≠ some '\r' := by
    rw [hlast]
    decide
  obtain ⟨ending, others, hfirst⟩ := exists_lines_cons hfeed hne hreturn rest
  rw [List.append_assoc, hlines] at hfirst
  obtain ⟨rfl, -⟩ := List.cons.inj hfirst
  rw [hmiddle, List.append_assoc]
  exact line_keeps_text width state (by decide) (by decide) opening ending

/-- **Listing on several lines.** If its first line leaves the `pre` element open, the line is kept to
    its end, and the other lines are copied up to the end of the listing. -/
theorem listing_over_lines (width : Nat) {name : List Char}
    (hline : line = opening ++ (listingStart label ++ first))
    (hraw : (state.next line).raw = some name) (hangle : '<' ∉ more) (hreturn : '\r' ∉ more)
    (rest : List Char) :
    ∃ before behind,
      indentLines width state (line :: lines (more ++ (listingEnd ++ rest))) =
        before ++ (listingStart label ++ first ++ '\n' :: (more ++ listingEnd) ++ behind) ∧
      withoutBlanks before = withoutBlanks opening := by
  have hstart : listingStart label ++ first =
      '<' :: ("pre><code".toList ++ label ++ ['>'] ++ first) := rfl
  rw [hstart] at hline
  obtain ⟨before, kept, back, htext, hbefore, hmore, -, hback⟩ :=
    exists_kept_end width state (show isBlank '<' = false by decide) opening
      ("pre><code".toList ++ label ++ ['>'] ++ first)
  rw [← hline] at htext hback
  -- A raw element is open behind the line, so no blanks are missing at its end.
  rw [hback (by rw [hraw]; rfl), List.append_nil] at hmore
  obtain ⟨behind, hbehind⟩ := prefix_indentLines_of_raw width hraw hangle hreturn listingEnd rest
    (by decide) (by decide) (by decide)
  refine ⟨before, behind, ?_, hbefore⟩
  rw [indentLines_cons, htext, ← hmore, ← hbehind, hstart]
  simp only [List.append_assoc, List.cons_append, List.nil_append]

/-- Behind a tag for a listing, the rest of its first line does not hold the end of the `pre`
    element. -/
theorem closeIndex?_codeTag (hlabel : '<' ∉ label) (hfirst : '<' ∉ first) (name : List Char) :
    closeIndex? name ("<code".toList ++ label ++ ['>'] ++ first) = none := by
  have hangle : '<' ∉ "code".toList ++ label ++ ['>'] ++ first := by
    simp only [List.mem_append, not_or]
    exact ⟨⟨⟨by decide, hlabel⟩, by decide⟩, hfirst⟩
  have hcut : "<code".toList ++ label ++ ['>'] ++ first =
      '<' :: ("code".toList ++ label ++ ['>'] ++ first) := rfl
  -- At the angle of the tag a letter follows, and no other angle is there.
  rw [hcut, closeIndex?_cons, closeIndex?_of_not_mem hangle, Option.map_none]
  intro hstarts
  have hslash := (List.cons_prefix_cons.mp hstarts).2
  exact absurd (List.cons_prefix_cons.mp hslash).1 (by decide)

/-- The lines of a listing with a line feed in its code: the first one goes up to the line feed. -/
theorem lines_listing {code : List Char} (hopening : '\n' ∉ opening) (hlabel : '\n' ∉ label)
    (hescape : Markdown.escapeText code = first ++ '\n' :: more) (hfirst : '\n' ∉ first)
    (hreturn : '\r' ∉ first) (rest : List Char) :
    listing label code = listingStart label ++ first ++ '\n' :: (more ++ listingEnd) ∧
      lines (opening ++ (listing label code ++ rest)) =
        (opening ++ (listingStart label ++ first)) :: lines (more ++ (listingEnd ++ rest)) := by
  have hcut : listing label code =
      listingStart label ++ first ++ '\n' :: (more ++ listingEnd) := by
    unfold listing listingBody listingStart listingEnd
    rw [hescape]
    simp only [List.append_assoc, List.cons_append]
  have hfeed : '\n' ∉ opening ++ (listingStart label ++ first) := by
    unfold listingStart
    simp only [List.mem_append, not_or]
    exact ⟨hopening, ⟨by decide, ⟨by decide, hlabel⟩, by decide⟩, hfirst⟩
  have hlast : (opening ++ (listingStart label ++ first)).getLast? ≠ some '\r' := by
    have hstart : opening ++ (listingStart label ++ first) =
        (opening ++ ("<pre>".toList ++ ("<code".toList ++ label))) ++ '>' :: first := by
      unfold listingStart
      simp only [List.append_assoc, List.singleton_append]
    rw [hstart, List.getLast?_append_of_ne_nil _ (List.cons_ne_nil _ _)]
    intro hlast
    rcases List.mem_cons.mp (List.mem_of_getLast? hlast) with heq | hmem
    · exact absurd heq (by decide)
    · exact hreturn hmem
  have htext : opening ++ (listing label code ++ rest) =
      opening ++ (listingStart label ++ first) ++ '\n' :: (more ++ (listingEnd ++ rest)) := by
    rw [hcut]
    simp only [List.append_assoc, List.cons_append]
  exact ⟨hcut, by rw [htext, lines_append_line hfeed hlast]⟩

/-- **Lines.** Where the indenter comes to the tag of a listing outside of raw bodies, the lines of the
    listing are kept, and in front of it only blanks change. -/
theorem lines_keep_listing {code inside blanks : List Char} (width : Nat)
    (hlabel : ∀ c ∈ label, c ≠ '<' ∧ c ≠ '\n') (hcode : '\r' ∉ code)
    (hlines : lines (opening ++ (listing label code ++ rest)) = line :: after)
    (hline : line = opening ++ ("<pre>".toList ++ (inside ++ blanks)))
    (hmeets : Meets (state.readable line) listingTag inside) :
    ∃ before behind,
      indentLines width state (line :: after) = before ++ (listing label code ++ behind) ∧
      withoutBlanks before = withoutBlanks opening := by
  have hlabelAngle : '<' ∉ label := fun h => (hlabel _ h).1 rfl
  have hlabelFeed : '\n' ∉ label := fun h => (hlabel _ h).2 rfl
  have hfeedLine : '\n' ∉ line := feed_not_mem_of_mem_lines (hlines ▸ List.mem_cons_self)
  have hfeedOpening : '\n' ∉ opening := fun h => hfeedLine (hline ▸ List.mem_append_left _ h)
  by_cases hfeed : '\n' ∈ Markdown.escapeText code
  · obtain ⟨first, more, hescape, hfirst⟩ := List.eq_append_cons_of_mem hfeed
    have hangle := angle_not_mem_escapeText code
    have hreturn := return_not_mem_escapeText hcode
    rw [hescape, List.mem_append, List.mem_cons, not_or, not_or] at hangle hreturn
    obtain ⟨hcut, hfirstLines⟩ :=
      lines_listing hfeedOpening hlabelFeed hescape hfirst hreturn.1 rest
    obtain ⟨hfirstLine, rfl⟩ := List.cons.inj (hfirstLines.symm.trans hlines)
    -- What is read of the line behind the tag is a part of the code's own tag and the first line.
    have hinside : inside <:+: "<code".toList ++ label ++ ['>'] ++ first := by
      have hstart : listingStart label ++ first =
          "<pre>".toList ++ ("<code".toList ++ label ++ ['>'] ++ first) := List.append_assoc ..
      have hsame := hfirstLine.trans hline
      rw [hstart, List.append_cancel_left_eq, List.append_cancel_left_eq] at hsame
      rw [hsame]
      exact (List.prefix_append ..).isInfix
    have hopen : closeIndex? listingTag.name inside = none :=
      closeIndex?_of_infix hinside (closeIndex?_codeTag hlabelAngle hangle.1 _)
    have hraw := next_raw_of_meets hmeets (by decide) hopen
    rw [hcut]
    exact listing_over_lines width hfirstLine.symm hraw hangle.2.2 hreturn.2.2 rest
  · have hfeedListing : '\n' ∉ opening ++ listing label code := by
      rw [List.mem_append]
      exact not_or.mpr ⟨hfeedOpening, feed_not_mem_listing hlabelFeed hfeed⟩
    obtain ⟨before, behind, htext, hbefore⟩ :=
      listing_on_line width state hfeedListing hlines
    refine ⟨before, behind ++ indentLines width (state.next line) after, ?_, hbefore⟩
    rw [indentLines_cons, htext, List.append_assoc, List.append_assoc]

end Listings

/-- **Listings.** Where the indenter comes to the tag of a listing outside of raw bodies, the result
    has the listing with all its blanks, between what was in front of it and what was behind it, in
    which only blanks change. -/
theorem indent_keeps_listing {front label code rest : List Char} (width : Nat)
    (hlabel : ∀ c ∈ label, c ≠ '<' ∧ c ≠ '\n') (hcode : '\r' ∉ code)
    (hcomes : ComesTo listingTag front "<pre>".toList (listingBody label code ++ rest)) :
    ∃ before behind,
      indent width (front ++ (listing label code ++ rest)) =
        before ++ (listing label code ++ behind) ∧
      withoutBlanks before = withoutBlanks front ∧ withoutBlanks behind = withoutBlanks rest := by
  obtain ⟨lead, opening, line, after, inside, blanks, rfl, hlead, hlines, hline, -, hmeets⟩ := hcomes
  rw [← List.append_assoc _ _ rest] at hlines
  obtain ⟨before, behind, htext, hbefore⟩ :=
    lines_keep_listing width hlabel hcode hlines hline hmeets
  -- The lead is indented by itself, and the listing from the state that the lead leaves behind.
  have hresult : indent width (lead ++ opening ++ (listing label code ++ rest)) =
      indent width lead ++ before ++ (listing label code ++ behind) := by
    rw [indent, List.append_assoc, lines_append_feed hlead]
    unfold listing
    rw [hlines, indentLines_append, htext, List.append_assoc]
    rfl
  have hfront : withoutBlanks (indent width lead ++ before) = withoutBlanks (lead ++ opening) := by
    rw [withoutBlanks_append, withoutBlanks_append, withoutBlanks_indent, hbefore]
  refine ⟨indent width lead ++ before, behind, hresult, hfront, ?_⟩
  have hall := withoutBlanks_indent width (lead ++ opening ++ (listing label code ++ rest))
  rw [hresult, withoutBlanks_append, withoutBlanks_append _ (listing label code ++ rest),
    hfront, List.append_cancel_left_eq, withoutBlanks_append, withoutBlanks_append,
    List.append_cancel_left_eq] at hall
  exact hall

/-! ### Pages -/

/-- **Pages.** If a page has a listing of code without carriage returns, and the indenter comes to the
    tag of the listing outside of raw bodies, then the indented page has the same listing, and around
    it only blanks change. The converter writes such a listing for every block of code. -/
theorem document_keeps_listing {document : Document} {front label code rest : List Char}
    (htext : document.text.toList = front ++ (listing label code ++ rest))
    (hlabel : ∀ c ∈ label, c ≠ '<' ∧ c ≠ '\n') (hcode : '\r' ∉ code)
    (hcomes : ComesTo listingTag front "<pre>".toList (listingBody label code ++ rest)) :
    (∀ width, ∃ before behind,
      indent width document.text.toList = before ++ (listing label code ++ behind) ∧
      withoutBlanks before = withoutBlanks front ∧ withoutBlanks behind = withoutBlanks rest) ∧
    ∀ definitions tight page info,
      (∀ c ∈ languageLabel info, c ≠ '<' ∧ c ≠ '>') ∧
      (Markdown.renderBlock definitions tight page (.code info code)).text.toList =
        page.freshLine.text.toList ++ (listing (languageLabel info) code ++ ['\n']) := by
  refine ⟨fun width => ?_, fun definitions tight page info => ?_⟩
  · rw [htext]
    exact indent_keeps_listing width hlabel hcode hcomes
  · exact ⟨angle_not_mem_languageLabel info, renderBlock_code definitions tight page info code⟩

/-- Code whose first line ends with blanks and whose last line is empty. -/
def spacedCode : List Char :=
  "  a < b  \n\n".toList

/-- A page with a block of code. -/
def listingPage : Document where
  lang := "en"
  fragments := ⟨"", "", "", "", ""⟩
  key := "notes"
  content :=
    (Markdown.renderBlock ⟨[], []⟩ false .empty (.code (some "rust".toList) spacedCode)).text
  hasSidebar := false
  stamp := "now"

/-- The listing stands in the page. -/
theorem toList_text_listingPage :
    listingPage.text.toList = listingPage.textBefore.toList ++
      (listing " class=\"language-rust\"".toList spacedCode ++
        '\n' :: listingPage.textBehind.toList) := by
  have hlabel : languageLabel (some "rust".toList) = " class=\"language-rust\"".toList := by decide
  have hcontent : listingPage.content.toList =
      [] ++ (listing (languageLabel (some "rust".toList)) spacedCode ++ ['\n']) :=
    renderBlock_code ⟨[], []⟩ false .empty (some "rust".toList) spacedCode
  rw [Document.text_eq, String.toList_append, String.toList_append, hcontent, hlabel]
  simp only [List.nil_append, List.append_assoc, List.singleton_append]

/-- In an empty header nothing is marked. -/
theorem markActive_empty (key : String) : markActive "" key = "" := by
  have hnone : (Needle.classToken (navigationToken key).toList).find [] [] = none := by
    show (if _ then none else Option.map _ none) = none
    split <;> rfl
  rw [markActive, splice, Needle.pieces]
  split
  · rfl
  · rename_i hsome
    rw [String.toList_empty, hnone] at hsome
    cases hsome

/-- The indenter comes to the listing of the page behind eight blanks. -/
theorem comesTo_listingPage :
    ComesTo listingTag listingPage.textBefore.toList "<pre>".toList
      (listingBody " class=\"language-rust\"".toList spacedCode ++
        '\n' :: listingPage.textBehind.toList) := by
  have hfront :
      listingPage.textBefore.toList =
        listingPage.textBefore.toList.take 131 ++ ['\n'] ++ List.replicate 8 ' ' ∧
      (IndentState.start.afterLines
        (lines (listingPage.textBefore.toList.take 131 ++ ['\n']))).raw = none := by
    unfold Document.textBefore listingPage
    simp only [markActive_empty]
    decide +kernel
  have hescape : Markdown.escapeText spacedCode =
      "  a &lt; b  ".toList ++ '\n' :: "\n".toList := by decide
  have hopening : '\n' ∉ List.replicate 8 ' ' := by decide
  have hlabel : '\n' ∉ " class=\"language-rust\"".toList := by decide
  obtain ⟨-, hlines⟩ := lines_listing hopening hlabel hescape (by decide) (by decide)
    ('\n' :: listingPage.textBehind.toList)
  refine ⟨_, _, _, _, "<code class=\"language-rust\">  a &lt; b".toList, List.replicate 2 ' ',
    hfront.1, .inr ⟨_, rfl⟩, hlines, by decide, fun _ => isBlank_of_mem_spaces, ?_⟩
  rw [IndentState.readable, hfront.2]
  exact .first (by decide +kernel)

/-- A page keeps all blanks of a block of code in Rust. -/
theorem document_keeps_listing_rust :
    listingPage.text.toList = listingPage.textBefore.toList ++
      (listing " class=\"language-rust\"".toList spacedCode ++
        '\n' :: listingPage.textBehind.toList) ∧
    (∀ c ∈ " class=\"language-rust\"".toList, c ≠ '<' ∧ c ≠ '\n') ∧ '\r' ∉ spacedCode ∧
    ComesTo listingTag listingPage.textBefore.toList "<pre>".toList
      (listingBody " class=\"language-rust\"".toList spacedCode ++
        '\n' :: listingPage.textBehind.toList) ∧
    ∃ before behind, indent 2 listingPage.text.toList = before ++
      ("<pre><code class=\"language-rust\">  a &lt; b  \n\n</code></pre>".toList ++ behind) := by
  have hchars : '<' ∉ " class=\"language-rust\"".toList ∧ '\n' ∉ " class=\"language-rust\"".toList := by
    decide
  have hlabel : ∀ c ∈ " class=\"language-rust\"".toList, c ≠ '<' ∧ c ≠ '\n' := fun c hc =>
    ⟨ne_of_mem_of_not_mem hc hchars.1, ne_of_mem_of_not_mem hc hchars.2⟩
  have hcode : '\r' ∉ spacedCode := by decide
  obtain ⟨before, behind, hindent, -⟩ :=
    (document_keeps_listing toList_text_listingPage hlabel hcode comesTo_listingPage).1 2
  have hlisting : listing " class=\"language-rust\"".toList spacedCode =
      "<pre><code class=\"language-rust\">  a &lt; b  \n\n</code></pre>".toList := by decide +kernel
  exact ⟨toList_text_listingPage, hlabel, hcode, comesTo_listingPage, before, behind,
    hlisting ▸ hindent⟩

end PageLoom
