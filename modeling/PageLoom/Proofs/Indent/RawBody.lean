import Mathlib.Data.List.Infix
import PageLoom.Proofs.Indent.Lines
import PageLoom.Proofs.Search

namespace PageLoom

/-!
# Where raw bodies end

The body of a raw element is copied line by line until a line holds the end of the element. But the
indenter does not read the name at that end to its last character. So a body is cut short by the end
of another element whose name only starts with the name of the raw one.

* `Meets` — reading a text, the indenter comes to a tag outside of raw bodies;
* `holdsEnd`, `holdsWholeEnd` — a text holds the end of an element, the name read in part or as a
  whole;
* `CopiesBodies` — the lines of all raw bodies are copied, for a given notion of their end;
* `indent_copies_bodies` — this holds with names read in part, and with whole names where no longer
  name is in the way;
* `indent_reflows_body` — a body that is cut short.
-/

/-! ### Tags that are met -/

/-- What follows a tag that has been opened is a suffix of the text. -/
theorem Tag.afterOpening?_suffix {closing : Bool} {text rest : List Char} {tag : Tag}
    (h : afterOpening? closing text = some (tag, rest)) : rest <:+ text := by
  unfold afterOpening? at h
  split at h
  · cases h
  · rename_i c tail
    simp only at h
    split at h
    · cases h
    · split at h
      · cases h
      · rename_i c' rest' heq
        obtain ⟨-, rfl⟩ := Prod.mk.inj (Option.some.inj h)
        have hmore := List.dropWhile_suffix (l := (c :: tail).dropWhile isTagNameChar) (· ≠ '>')
        rw [heq] at hmore
        exact (List.suffix_cons c' rest').trans (hmore.trans (List.dropWhile_suffix _))

/-- What follows the first tag of a text is a suffix of the text. -/
theorem Tag.next?_suffix {text rest : List Char} {tag : Tag}
    (h : next? text = some (tag, rest)) : rest <:+ text := by
  induction text with
  | nil => cases h
  | cons c tail ih =>
    rw [next?] at h
    refine List.IsSuffix.trans ?_ (List.suffix_cons c tail)
    split at h
    · split at h
      · rename_i found hfound
        obtain rfl := Option.some.inj h
        unfold afterAngle? at hfound
        split at hfound
        · cases hfound
        · split at hfound
          · exact (afterOpening?_suffix hfound).trans (List.suffix_cons ..)
          · exact afterOpening?_suffix hfound
      · exact ih h
    · exact ih h

/-- The tag opens a raw element. -/
def Tag.opensRaw (tag : Tag) : Bool :=
  tag.opensBody && rawElements.contains tag.name

/-- Reading a text, the indenter comes to a tag outside of raw bodies, and the given rest follows
    the tag. A raw body that ends in the text is passed over. -/
inductive Meets : List Char → Tag → List Char → Prop
  | first {text rest : List Char} {tag : Tag} :
      Tag.next? text = some (tag, rest) → Meets text tag rest
  | later {text rest after : List Char} {tag other : Tag} :
      Tag.next? text = some (tag, rest) → tag.opensRaw = false → Meets rest other after →
      Meets text other after
  | behind {text rest after : List Char} {tag other : Tag} {place : Nat} :
      Tag.next? text = some (tag, rest) → tag.opensRaw = true →
      closeIndex? tag.name rest = some place → Meets (rest.drop place) other after →
      Meets text other after

variable {text rest : List Char} {tag : Tag}

/-- What follows a tag that is met is a suffix of the text. -/
theorem Meets.suffix (h : Meets text tag rest) : rest <:+ text := by
  induction h with
  | first hnext => exact Tag.next?_suffix hnext
  | later hnext _ _ ih => exact ih.trans (Tag.next?_suffix hnext)
  | behind hnext _ _ _ ih => exact ih.trans ((List.drop_suffix ..).trans (Tag.next?_suffix hnext))

/-- A text with a tag is not empty. -/
theorem Meets.ne_nil (h : Meets text tag rest) : text ≠ [] := by
  rintro rfl
  cases h with
  | first hnext => cases hnext
  | later hnext => cases hnext
  | behind hnext => cases hnext

/-- A tag that opens a raw element closes none, and its element is a raw one with a body. -/
theorem Tag.opensRaw_iff :
    tag.opensRaw = true ↔
      tag.closing = false ∧ tag.opensBody = true ∧ rawElements.contains tag.name = true := by
  unfold Tag.opensRaw Tag.opensBody
  cases tag.closing <;> simp

/-- **Open body.** A raw element that is met, and has no end in the rest of the text, is open behind
    the text. -/
theorem Meets.raw_shapeFrom (h : Meets text tag rest) (hraw : tag.opensRaw = true)
    (hopen : closeIndex? tag.name rest = none) (leading : Bool) :
    (shapeFrom leading text).raw = some tag.name := by
  induction h generalizing leading with
  | first hnext =>
    obtain ⟨hclosing, hbody, hname⟩ := Tag.opensRaw_iff.mp hraw
    rw [shapeFrom_of_some hnext, hclosing, hbody, hname, hopen]
    rfl
  | later hnext hother _ ih =>
    rw [shapeFrom_of_some hnext]
    split
    · exact ih hraw hopen leading
    split
    · exact ih hraw hopen false
    split
    · -- A raw element with a body would have been passed over.
      rename_i hbody hname
      simp only [Bool.not_eq_true', Bool.not_eq_false] at hbody
      rw [Tag.opensRaw, hbody, hname] at hother
      cases hother
    · exact ih hraw hopen false
  | behind hnext hother hplace _ ih =>
    obtain ⟨hclosing, hbody, hname⟩ := Tag.opensRaw_iff.mp hother
    rw [shapeFrom_of_some hnext, hclosing, hbody, hname, hplace]
    exact ih hraw hopen false

/-! ### Ends of raw elements -/

/-- How the end of an element starts. -/
def endMark (name : List Char) : List Char :=
  '<' :: '/' :: name

/-- Somewhere in the text, in any case, the end of an element starts, and the character behind the
    name, if there is one, is as asked for. -/
def findsEnd (behind : Option Char → Bool) (name text : List Char) : Bool :=
  (text.map Char.toLower).tails.any fun rest =>
    (endMark name).isPrefixOf rest && behind (rest.drop (endMark name).length).head?

/-- The text holds the end of an element, of whose name only the start is read. -/
def holdsEnd : List Char → List Char → Bool :=
  findsEnd fun _ => true

/-- The text holds the end of an element with the whole name. -/
def holdsWholeEnd : List Char → List Char → Bool :=
  findsEnd fun next => !next.any isTagNameChar

/-- The text holds the end of an element with a longer name. -/
def holdsLongerEnd : List Char → List Char → Bool :=
  findsEnd fun next => next.any isTagNameChar

/-- The indenter looks for an end without regard to what follows the name. -/
theorem closeIndex?_eq_none_iff {name text : List Char} :
    closeIndex? name text = none ↔ holdsEnd name text = false := by
  unfold closeIndex? holdsEnd findsEnd
  refine indexOf?_eq_none_iff_not_infix.trans ?_
  rw [← Bool.not_eq_true, not_iff_not, List.any_eq_true, List.infix_iff_prefix_suffix]
  simp only [List.mem_tails, Bool.and_true, List.isPrefixOf_iff_prefix, endMark, and_comm]

/-- An end is one with the whole name or one with a longer name. -/
theorem holdsWholeEnd_of_holdsEnd {name text : List Char} (h : holdsEnd name text = true) :
    holdsWholeEnd name text = true ∨ holdsLongerEnd name text = true := by
  unfold holdsEnd findsEnd at h
  obtain ⟨rest, hrest, hmark⟩ := List.any_eq_true.mp h
  rw [Bool.and_true] at hmark
  cases hnext : (rest.drop (endMark name).length).head?.any isTagNameChar with
  | false => exact .inl (List.any_eq_true.mpr ⟨rest, hrest, by simp only [hmark, hnext]; rfl⟩)
  | true => exact .inr (List.any_eq_true.mpr ⟨rest, hrest, by simp only [hmark, hnext]; rfl⟩)

/-- The end of an element with a longer name in a part of a text is one in the text. -/
theorem holdsLongerEnd_of_infix {name part text : List Char} (hpart : part <:+: text)
    (h : holdsLongerEnd name part = true) : holdsLongerEnd name text = true := by
  obtain ⟨front, back, rfl⟩ := hpart
  obtain ⟨rest, hrest, hlonger⟩ := List.any_eq_true.mp h
  obtain ⟨hmark, hnext⟩ := Bool.and_eq_true_iff.mp hlonger
  obtain ⟨more, rfl⟩ := List.isPrefixOf_iff_prefix.mp hmark
  rw [List.drop_left] at hnext
  refine List.any_eq_true.mpr ⟨endMark name ++ more ++ back.map Char.toLower, ?_, ?_⟩
  · obtain ⟨before, hbefore⟩ := (List.mem_tails ..).mp hrest
    refine (List.mem_tails ..).mpr ⟨front.map Char.toLower ++ before, ?_⟩
    rw [List.map_append, List.map_append, ← hbefore]
    simp only [List.append_assoc]
  · rw [Bool.and_eq_true, List.append_assoc, List.drop_left]
    refine ⟨List.isPrefixOf_iff_prefix.mpr (List.prefix_append ..), ?_⟩
    cases more with
    | nil => cases hnext
    | cons c more => exact hnext

/-! ### Bodies -/

/-- The part of a line in which the indenter looks for tags outside of raw bodies: the trimmed line,
    or what follows the end of the raw element that was open in front of the line. -/
def IndentState.readable (state : IndentState) (line : List Char) : List Char :=
  match state.raw with
  | none => trim line
  | some name =>
    match closeIndex? name line with
    | none => []
    | some place => ((line.drop place).dropWhile (· ≠ '>')).drop 1

variable {state : IndentState} {line inside : List Char}

/-- In a raw body the part with tags is the last one of the line. -/
theorem readable_suffix {name : List Char} (h : state.raw = some name) (line : List Char) :
    state.readable line <:+ line := by
  unfold IndentState.readable
  rw [h]
  simp only
  split
  · exact List.nil_suffix
  · exact (List.drop_suffix ..).trans ((List.dropWhile_suffix _).trans (List.drop_suffix ..))

/-- The part with tags is a part of the line. -/
theorem infix_readable (state : IndentState) (line : List Char) :
    state.readable line <:+: line := by
  cases hstate : state.raw with
  | some name => exact (readable_suffix hstate line).isInfix
  | none =>
    unfold IndentState.readable
    rw [hstate]
    obtain ⟨front, back, -, -, hline⟩ := exists_eq_trim line
    exact ⟨front, back, hline.symm⟩

/-- A raw element that is met on a line, and has no end there, is open behind the line. -/
theorem next_raw_of_meets (h : Meets (state.readable line) tag inside)
    (hraw : tag.opensRaw = true) (hopen : closeIndex? tag.name inside = none) :
    (state.next line).raw = some tag.name := by
  have hshape : (shapeOf (state.readable line)).raw = some tag.name :=
    h.raw_shapeFrom hraw hopen _
  rw [← indentLine_snd 0]
  unfold IndentState.readable at h hshape
  cases hstate : state.raw with
  | none =>
    rw [hstate] at h hshape
    rw [indentLine_of_text hstate h.ne_nil]
    exact hshape
  | some name =>
    rw [indentLine_of_raw hstate]
    rw [hstate] at h hshape
    unfold IndentState.afterRaw
    cases hplace : closeIndex? name line with
    | none =>
      simp only [hplace] at h
      exact absurd rfl h.ne_nil
    | some place =>
      simp only [hplace] at hshape
      exact hshape

/-- The rest of a line behind a raw element that stays open is kept, with the blanks at its end. -/
theorem indentLine_of_meets (width : Nat) (h : Meets (state.readable line) tag inside)
    (hraw : tag.opensRaw = true) (hopen : closeIndex? tag.name inside = none) :
    ∃ front indented blanks, (∀ c ∈ blanks, isBlank c = true) ∧ line = front ++ inside ++ blanks ∧
      (indentLine width state line).1 = indented ++ inside ++ blanks ++ ['\n'] := by
  have hshape : (shapeOf (state.readable line)).raw = some tag.name :=
    h.raw_shapeFrom hraw hopen _
  cases hstate : state.raw with
  | some name =>
    -- In a raw body the whole line is copied, and nothing is trimmed.
    obtain ⟨front, hfront⟩ := h.suffix.trans (readable_suffix hstate line)
    refine ⟨front, front, [], by simp, by rw [List.append_nil, hfront], ?_⟩
    rw [indentLine_of_raw hstate, List.append_nil, hfront]
  | none =>
    have hreadable : state.readable line = trim line := by rw [IndentState.readable, hstate]
    rw [hreadable] at h hshape
    obtain ⟨lead, hlead⟩ := h.suffix
    obtain ⟨front, hfront, hline⟩ := exists_eq_trimStart line
    obtain ⟨blanks, hblanks, htrim⟩ := exists_trimStart_eq_trim line
    have hkept : keptText line = lead ++ inside ++ blanks := by
      rw [keptText, hshape, htrim, ← hlead]
      rfl
    refine ⟨front ++ lead,
      List.replicate ((state.depth - (shapeOf (trim line)).leadingCloses) * width) ' ' ++ lead,
      blanks, hblanks, ?_, ?_⟩
    · rw [List.append_assoc, List.append_assoc, ← List.append_assoc lead, hlead, ← htrim]
      exact hline
    · rw [indentLine_of_text hstate h.ne_nil, hkept]
      simp only [List.append_assoc]

/-- While a raw element is open, the lines up to the first one with its end start in its body. -/
theorem trackedLines_of_raw {name : List Char} {body : List (List Char)}
    (hstate : state.raw = some name)
    (hbody : ∀ line ∈ body.dropLast, closeIndex? name line = none) :
    ∀ entry ∈ trackedLines state body, entry.1 = true := by
  induction body generalizing state with
  | nil => simp [trackedLines]
  | cons line body ih =>
    intro entry hentry
    rcases List.mem_cons.mp hentry with rfl | hentry
    · rw [hstate]
      rfl
    cases body with
    | nil => cases hentry
    | cons next body =>
      rw [List.dropLast_cons_cons] at hbody
      obtain ⟨hline, hbody⟩ := List.forall_mem_cons.mp hbody
      refine ih ?_ hbody entry hentry
      rw [← indentLine_snd 0, indentLine_of_raw hstate]
      unfold IndentState.afterRaw
      rw [hline]

/-- **Copied bodies.** Where the indenter meets a raw element outside of raw bodies, and the rest of
    the line does not hold its end, that rest keeps the blanks at its end, and the lines up to the
    first one with the end are copied. What an end is, is given. -/
def CopiesBodies (ends : List Char → List Char → Bool) (width : Nat) (text : List Char) : Prop :=
  ∀ (before body after : List (List Char)) (opening inside : List Char) (tag : Tag),
    lines text = before ++ opening :: (body ++ after) →
    Meets ((IndentState.start.afterLines before).readable opening) tag inside →
    tag.opensRaw = true → ends tag.name inside = false →
    (∀ line ∈ body.dropLast, ends tag.name line = false) →
    ∃ front indented blanks,
      (∀ c ∈ blanks, isBlank c = true) ∧ opening = front ++ inside ++ blanks ∧
      indent width text = indentLines width .start before ++
        (indented ++ inside ++ blanks ++ ['\n'] ++ body.flatMap (· ++ ['\n'])) ++
        indentLines width (IndentState.start.afterLines (before ++ opening :: body)) after

/-- With ends of whose names only the start is read, all bodies are copied. -/
theorem copiesBodies_holdsEnd (width : Nat) (text : List Char) :
    CopiesBodies holdsEnd width text := by
  intro before body after opening inside tag hcut hmeets hraw hopen hbody
  have hopen := closeIndex?_eq_none_iff.mpr hopen
  have hbody : ∀ line ∈ body.dropLast, closeIndex? tag.name line = none :=
    fun line hline => closeIndex?_eq_none_iff.mpr (hbody line hline)
  obtain ⟨front, indented, blanks, hblanks, hopening, htext⟩ :=
    indentLine_of_meets width hmeets hraw hopen
  refine ⟨front, indented, blanks, hblanks, hopening, ?_⟩
  have hcopied := indentLines_of_raw width
    (trackedLines_of_raw (next_raw_of_meets hmeets hraw hopen) hbody)
  rw [indent, hcut, indentLines_append, indentLines_cons, htext, indentLines_append, hcopied]
  simp only [List.append_assoc, IndentState.afterLines, List.foldl_append, List.foldl_cons]

/-- **Bodies.** All lines of raw bodies are copied up to the first one that holds the end of the
    element, where only the start of the name at the end is read. So if no line holds the end of an
    element with a longer name, they are copied up to the first one with the whole name. -/
theorem indent_copies_bodies (width : Nat) (text : List Char) :
    CopiesBodies holdsEnd width text ∧
      ((∀ line ∈ lines text, ∀ name ∈ rawElements, holdsLongerEnd name line = false) →
        CopiesBodies holdsWholeEnd width text) := by
  refine ⟨copiesBodies_holdsEnd width text, fun hnone => ?_⟩
  intro before body after opening inside tag hcut hmeets hraw hopen hbody
  have hname : tag.name ∈ rawElements :=
    List.contains_iff_mem.mp (Tag.opensRaw_iff.mp hraw).2.2
  have hlines : ∀ line, line = opening ∨ line ∈ body.dropLast → line ∈ lines text := by
    intro line hline
    rw [hcut]
    rcases hline with rfl | hline
    · simp
    · simp [(List.dropLast_sublist body).subset hline]
  -- Without longer names in the way, an end is one with the whole name.
  refine copiesBodies_holdsEnd width text before body after opening inside tag hcut hmeets hraw
    ?_ fun line hline => ?_
  · rw [Bool.eq_false_iff]
    intro hend
    have hlonger := (holdsWholeEnd_of_holdsEnd hend).resolve_left (by simp [hopen])
    have hline := holdsLongerEnd_of_infix
      (hmeets.suffix.isInfix.trans (infix_readable _ opening)) hlonger
    rw [hnone opening (hlines opening (.inl rfl)) tag.name hname] at hline
    cases hline
  · rw [Bool.eq_false_iff]
    intro hend
    have hlonger := (holdsWholeEnd_of_holdsEnd hend).resolve_left (by simp [hbody line hline])
    rw [hnone line (hlines line (.inr hline)) tag.name hname] at hlonger
    cases hlonger

/-- A listing with blanks behind its tag, and with an empty line. -/
def plainListing : List Char :=
  "<div>\n  <PRE> \n  a  \n\n</pre>x".toList

/-- The blanks and the empty line of the listing are kept. -/
theorem indent_copies_bodies_listing :
    (∀ line ∈ lines plainListing, ∀ name ∈ rawElements, holdsLongerEnd name line = false) ∧
      ∃ front indented blanks, (∀ c ∈ blanks, isBlank c = true) ∧
        "  <PRE> ".toList = front ++ [] ++ blanks ∧
        indent 2 plainListing = "<div>\n".toList ++
          (indented ++ [] ++ blanks ++ ['\n'] ++ "  a  \n\n</pre>x\n".toList) ++ [] := by
  have hnone : ∀ line ∈ lines plainListing, ∀ name ∈ rawElements,
      holdsLongerEnd name line = false := by decide +kernel
  have hmeets : Meets ((IndentState.start.afterLines ["<div>".toList]).readable "  <PRE> ".toList)
      ⟨false, "pre".toList, false⟩ [] := .first (by decide +kernel)
  obtain ⟨front, indented, blanks, hblanks, hopening, htext⟩ :=
    (indent_copies_bodies 2 plainListing).2 hnone ["<div>".toList]
      ["  a  ".toList, [], "</pre>x".toList] [] "  <PRE> ".toList [] _ (by decide +kernel) hmeets
      (by decide +kernel) (by decide +kernel) (by decide +kernel)
  have hbefore : indentLines 2 .start ["<div>".toList] = "<div>\n".toList := by decide +kernel
  refine ⟨hnone, front, indented, blanks, hblanks, hopening, htext.trans ?_⟩
  rw [hbefore]
  rfl

/-- A listing that shows the end of another element, whose name goes on behind that of the
    listing. -/
def cutListing : List Char :=
  "<pre>\n</preview>\n  x\n</pre>".toList

/-- The listing is cut short there, and its next line is trimmed. -/
theorem indent_reflows_body :
    indent 2 cutListing = "<pre>\n</preview>\nx\n</pre>\n".toList ∧
      ¬ CopiesBodies holdsWholeEnd 2 cutListing := by
  have htext : indent 2 cutListing = "<pre>\n</preview>\nx\n</pre>\n".toList := by decide +kernel
  refine ⟨htext, fun hcopies => ?_⟩
  obtain ⟨front, indented, blanks, -, -, hcopied⟩ := hcopies []
    ["</preview>".toList, "  x".toList] ["</pre>".toList] "<pre>".toList []
    ⟨false, "pre".toList, false⟩ (by decide +kernel) (.first (by decide +kernel))
    (by decide +kernel) (by decide +kernel) (by decide +kernel)
  have hinfix : ["</preview>".toList, "  x".toList].flatMap (· ++ ['\n']) <:+:
      indent 2 cutListing := by
    rw [hcopied]
    exact ((List.suffix_append ..).isInfix).trans
      (((List.suffix_append ..).isInfix).trans (List.prefix_append ..).isInfix)
  rw [htext] at hinfix
  exact absurd hinfix (by decide +kernel)

end PageLoom
